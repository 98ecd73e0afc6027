import BmcAccount.Account.Authentication
import BmcAccount.Account.Admin

/-!
# The two versions of RMCP

An account is admitted by RMCP under its identifier, and by RMCP+ under its name. Both look at
the lock, at whether the account is enabled, at its login rules and at its login interfaces. Only
RMCP+ looks at the age of the password, and only RMCP+ spares the emergency account the test of
the login interfaces. `admits_alike_iff` says for which accounts they come to the same verdict.
-/

namespace BmcAccount

open Raise

/-- The refusal is by the lock, because the account is disabled, by a login rule, by the login
interfaces, or by the age of the password. -/
def Reason.isAdmission : Reason → Bool
  | .locked | .disabled | .loginRule | .loginInterface | .passwordExpired => true
  | _ => false

/-- The request is refused because the account is not admitted. -/
def Bars {α : Type} (m : AuthM α) (s : State) : Prop :=
  ∃ r s', exec m s = (.error r, s') ∧ r.isAdmission = true

/-! ## Refusals -/

section Bars

variable {α β : Type} {s : State}

theorem bars_refuse_bind {b : Bool} {r : Reason} {f : Unit → AuthM β}
    (hr : r.isAdmission = true) :
  Bars (refuse b r >>= f) s ↔ b = true ∨ Bars (f ()) s
  := by
  unfold Bars
  cases b with
  | true =>
    rw [exec_bind_error (exec_refuse_true r s)]
    exact ⟨fun _ => .inl rfl, fun _ => ⟨r, s, rfl, hr⟩⟩
  | false =>
    rw [exec_bind_ok (exec_refuse_false r s)]
    simp

@[simp]
theorem bars_pure {a : α} :
  ¬ Bars (pure a) s
  := by
  rintro ⟨r, s', hexec, -⟩
  cases hexec

theorem bars_throw {r : Reason} :
  Bars (throw r : AuthM α) s ↔ r.isAdmission = true
  := by
  constructor
  · rintro ⟨r', s', hexec, hr⟩
    cases hexec
    exact hr
  · exact fun hr => ⟨r, s, rfl, hr⟩

theorem bars_refuse {b : Bool} {r : Reason} (hr : r.isAdmission = true) :
  Bars (refuse b r) s ↔ b = true
  := by
  cases b with
  | true => exact ⟨fun _ => rfl, fun _ => ⟨r, s, rfl, hr⟩⟩
  | false => exact ⟨fun h => absurd h bars_pure, fun h => nomatch h⟩

/-- A test before a program that admits. -/
theorem bars_bind_iff_left {m : AuthM α} {f : α → AuthM β} (hf : ∀ a s', ¬ Bars (f a) s') :
  Bars (m >>= f) s ↔ Bars m s
  := by
  unfold Bars
  rw [exec_bind]
  rcases exec m s with ⟨e | a, s'⟩
  · constructor
    · rintro ⟨r, s'', hexec, hr⟩
      cases hexec
      exact ⟨e, s', rfl, hr⟩
    · rintro ⟨r, s'', hexec, hr⟩
      cases hexec
      exact ⟨e, s', rfl, hr⟩
  · constructor
    · exact fun h => absurd h (hf a s')
    · rintro ⟨r, s'', hexec, -⟩
      cases hexec

theorem bars_recordLogin_bind {env : Env} {id : ℕ} {ip : Option String}
    {interface : Option LoginInterface} {f : Unit → AuthM β} :
  Bars (recordLogin env id ip interface >>= f) s
    ↔ Bars (f ()) (Raise.after (recordLogin env id ip interface) s)
  := Iff.rfl

theorem bars_refuse_false_bind {r : Reason} {f : Unit → AuthM β} :
  Bars (refuse false r >>= f) s ↔ Bars (f ()) s
  := Iff.rfl

theorem bars_get_bind {f : State → AuthM β} :
  Bars (MonadState.get >>= f) s ↔ Bars (f s) s
  := Iff.rfl

end Bars

/-! ## The two verdicts -/

/-- `gen_rmcp15_auth_code` does not admit the account. -/
def State.rmcp15Bars (s : State) (auth : AuthEnv) (id : ℕ) (a : Account) (ip : String) : Bool :=
  a.data.locked || !a.data.enabled || !s.checkLoginRule auth id a ip || !a.ipmiAllowed

/-- `gen_rmcp20_auth_code` does not admit the account. -/
def State.rmcp20Bars (s : State) (auth : AuthEnv) (id : ℕ) (a : Account) (ip : String) : Bool :=
  a.data.locked || !a.data.enabled
    || !s.checkIsEmergencyUser id
      && (!s.checkLoginRule auth id a ip || !a.ipmiAllowed || a.data.passwordExpiration = 0)

/-- The emergency account has its IPMI interface open, and the password of another account has not
expired, unless the account is not admitted anyway. -/
def State.AdmitsAlike (s : State) (auth : AuthEnv) (id : ℕ) (a : Account) (ip : String) : Prop :=
  a.data.locked = true ∨ a.data.enabled = false ∨
    if s.checkIsEmergencyUser id then a.ipmiAllowed = true
    else a.data.passwordExpiration ≠ 0 ∨ a.checkLoginRule auth ip = false ∨ a.ipmiAllowed = false

section Verdicts

variable {auth : AuthEnv} {s : State} {id : ℕ} {a : Account} {ip : String}

theorem bars_genRmcp15AuthCode {ctx : AuthCtx} (hip : ctx.clientAddr = some ip)
    (hid : minUserNum ≤ id ∧ id ≤ maxUserNum) (ha : s.accounts.lookup id = some a) :
  Bars (genRmcp15AuthCode auth ctx id) s ↔ s.rmcp15Bars auth id a ip = true
  := by
  have hrange : (id < minUserNum || maxUserNum < id) = false := by
    simp [hid.1, hid.2]
  unfold genRmcp15AuthCode
  rw [hip]
  dsimp only
  rw [hrange, bars_refuse_false_bind, bars_get_bind, ha]
  dsimp only
  iterate 4 rw [bars_refuse_bind rfl]
  rw [bars_recordLogin_bind]
  unfold State.rmcp15Bars
  cases auth.rmcp15Code a with
  | none => simp [bars_throw, Reason.isAdmission, or_assoc]
  | some code => simp [or_assoc]

theorem bars_checkRmcp20Restrictions :
  Bars (checkRmcp20Restrictions auth id a (some ip)) s
    ↔ (!s.checkIsEmergencyUser id && (!s.checkLoginRule auth id a ip || !a.ipmiAllowed
      || a.data.passwordExpiration = 0)) = true
  := by
  unfold checkRmcp20Restrictions
  rw [bars_get_bind]
  cases s.checkIsEmergencyUser id with
  | true => simp
  | false =>
    rw [if_neg Bool.false_ne_true, bars_refuse_bind rfl, bars_refuse_bind rfl, bars_refuse rfl]
    simp [or_assoc]

theorem bars_genRmcp20AuthCode {order : List ℕ} {ctx : AuthCtx} {name : String}
    (hname : auth.baseCheckUserName name = true) (hfind : s.findAccount order name = some (id, a)) :
  Bars (genRmcp20AuthCode auth order ctx name (some ip)) s ↔ s.rmcp20Bars auth id a ip = true
  := by
  unfold genRmcp20AuthCode
  rw [hname, Bool.not_true, bars_refuse_false_bind, bars_get_bind, hfind]
  dsimp only
  iterate 2 rw [bars_refuse_bind rfl]
  rw [bars_bind_iff_left]
  · rw [bars_checkRmcp20Restrictions]
    unfold State.rmcp20Bars
    simp [or_assoc]
  · intro _ s'
    rw [bars_recordLogin_bind]
    cases auth.rmcp20Codes a with
    | none => simp [bars_throw, Reason.isAdmission]
    | some codes => exact bars_pure

theorem admitsAlike_iff :
  s.AdmitsAlike auth id a ip ↔ s.rmcp15Bars auth id a ip = s.rmcp20Bars auth id a ip
  := by
  unfold State.AdmitsAlike State.rmcp15Bars State.rmcp20Bars State.checkLoginRule
  cases s.checkIsEmergencyUser id <;> cases a.data.locked <;> cases a.data.enabled
    <;> cases a.checkLoginRule auth ip <;> cases a.ipmiAllowed <;> simp

/-- The account is the one that is found by its name, and is admitted alike; or another account of
the same name is found, and that one is admitted by RMCP+ just if this one is admitted by RMCP. -/
def State.NameAdmitsAlike (s : State) (auth : AuthEnv) (order : List ℕ) (id : ℕ) (a : Account)
    (ip : String) : Prop :=
  ∀ found ∈ s.findAccount order a.data.userName,
    if found.1 = id then s.AdmitsAlike auth id a ip
    else s.rmcp15Bars auth id a ip = s.rmcp20Bars auth found.1 found.2 ip

theorem exists_findAccount {order : List ℕ} (ha : s.accounts.lookup id = some a)
    (horder : id ∈ order) :
  ∃ found, s.findAccount order a.data.userName = some found ∧ (found.1 = id → found.2 = a)
  := by
  have hsome : (s.getAccountByName order a.data.userName).isSome = true :=
    List.find?_isSome.mpr ⟨id, horder, by simp [ha]⟩
  obtain ⟨id', hid'⟩ := Option.isSome_iff_exists.mp hsome
  obtain ⟨a', ha', -⟩ := userName_of_getAccountByName hid'
  refine ⟨(id', a'), findAccount_eq ha' hid', ?_⟩
  rintro rfl
  exact Option.some_inj.mp (ha'.symm.trans ha)

end Verdicts

/-- Of the two versions of RMCP one admits an account, under its identifier, just if the other one
does, under its name, where the name finds an account that is admitted alike. -/
theorem admits_alike_iff (auth : AuthEnv) {s : State} {id : ℕ} {a : Account}
    (ha : s.accounts.lookup id = some a) (hid : minUserNum ≤ id ∧ id ≤ maxUserNum)
    (hname : auth.baseCheckUserName a.data.userName = true) {order : List ℕ} (horder : id ∈ order)
    {ctx : AuthCtx} {ip : String} (hip : ctx.clientAddr = some ip) (ctx' : AuthCtx) :
  (Bars (genRmcp15AuthCode auth ctx id) s
      ↔ Bars (genRmcp20AuthCode auth order ctx' a.data.userName (some ip)) s)
    ↔ s.NameAdmitsAlike auth order id a ip
  := by
  obtain ⟨found, hfound, hsame⟩ := exists_findAccount ha horder
  rw [bars_genRmcp15AuthCode hip hid ha, bars_genRmcp20AuthCode hname hfound, ← Bool.eq_iff_iff]
  unfold State.NameAdmitsAlike
  rw [hfound]
  simp only [Option.mem_some_iff, forall_eq']
  by_cases h : found.1 = id
  · rw [if_pos h, admitsAlike_iff, h, hsame h]
  · rw [if_neg h]

/-! ### An expired password -/

/-- Every address is allowed, and the codes can be made. -/
def plainAuth : AuthEnv where
  env := plainEnv
  baseCheckUserName _ := true
  loginRules _ _ := true
  rmcp20Codes _ := some ("", "", "")
  rmcp15Code _ := some ""

/-- An operator with the IPMI interface, and with an expired password. -/
def expiredAccount : Account :=
  let plain := plainAccount "user" RoleType.operator.value 223
  { plain with data := { plain.data with passwordExpiration := 0 } }

def expiredState : State := plainState [(3, expiredAccount)]

def rmcpCtx : AuthCtx := ⟨some "192.168.1.2", none⟩

theorem admits_alike_iff_expired :
  expiredState.accounts.lookup 3 = some expiredAccount ∧ (minUserNum ≤ 3 ∧ 3 ≤ maxUserNum)
    ∧ plainAuth.baseCheckUserName "user" = true ∧ 3 ∈ [3]
    ∧ rmcpCtx.clientAddr = some "192.168.1.2" ∧
    ((Bars (genRmcp15AuthCode plainAuth rmcpCtx 3) expiredState
        ↔ Bars (genRmcp20AuthCode plainAuth [3] rmcpCtx expiredAccount.data.userName
          (some "192.168.1.2")) expiredState)
      ↔ expiredState.NameAdmitsAlike plainAuth [3] 3 expiredAccount "192.168.1.2")
  := by
  have ha : expiredState.accounts.lookup 3 = some expiredAccount := by
    rfl
  exact ⟨ha, by decide, rfl, by decide, rfl,
    admits_alike_iff plainAuth ha (by decide) rfl (by decide) rfl rmcpCtx⟩

/-- RMCP admits the account and RMCP+ does not. -/
theorem expired_admitted :
  ¬ (Bars (genRmcp15AuthCode plainAuth rmcpCtx 3) expiredState
    ↔ Bars (genRmcp20AuthCode plainAuth [3] rmcpCtx expiredAccount.data.userName
      (some "192.168.1.2")) expiredState)
  := by
  have ha : expiredState.accounts.lookup 3 = some expiredAccount := by
    rfl
  have hfind : expiredState.findAccount [3] expiredAccount.data.userName
      = some (3, expiredAccount) := findAccount_eq ha (by decide +kernel)
  rw [bars_genRmcp15AuthCode (a := expiredAccount) rfl (by decide) ha,
    bars_genRmcp20AuthCode rfl hfind]
  decide +kernel

end BmcAccount
