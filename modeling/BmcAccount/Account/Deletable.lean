import BmcAccount.Account.AllOrNothing
import BmcAccount.Account.Emergency
import BmcAccount.Account.View

/-!
# The flag that tells whether an account can be deleted

The flag of a local account is stored. Some operations compute all flags anew; the others leave
them as they are. A flag is to be false exactly when `delete_account` would refuse because the
account is the emergency account, a fixed account for SNMP traps, or the last operable
administrator. But the flags are computed with the number of enabled administrators, and the
deletion counts only those that can operate.

What both look at is the rank of each account. The first part is about ranks and flags alone, and
the operations are then followed by what they do to the two.
-/

namespace BmcAccount

open Raise

/-! ## Ranks and flags -/

/-- Whether an account is local, an enabled administrator, and one that can operate. -/
@[ext]
structure Rank where
  isLocal : Bool
  enabledAdmin : Bool
  operates : Bool
  enabledAdmin_of_operates : operates = true → enabledAdmin = true
  isLocal_of_enabledAdmin : enabledAdmin = true → isLocal = true

namespace Rank

variable {K : ℕ → Prop} {T T' : ℕ → Option Rank} {D : ℕ → Option Bool} {id : ℕ}

/-- The only operable administrator. -/
def SoleOperator (T : ℕ → Option Rank) (id : ℕ) : Prop :=
  (∃ r, T id = some r ∧ r.operates = true) ∧ ∀ j r, T j = some r → r.operates = true → j = id

/-- There is no other enabled administrator. -/
def NoOtherAdmin (T : ℕ → Option Rank) (id : ℕ) : Prop :=
  ∀ j r, T j = some r → r.enabledAdmin = true → j = id

/-- The flags are false for the accounts that the configuration protects, which are those in `K`,
and for the only operable administrator. -/
def Truthful (K : ℕ → Prop) (T : ℕ → Option Rank) (D : ℕ → Option Bool) : Prop :=
  ∀ id r d, T id = some r → D id = some d → r.isLocal = true →
    (d = false ↔ K id ∨ SoleOperator T id)

/-- The flags as they are computed: an operable administrator has to be the only enabled one. -/
def Refreshed (K : ℕ → Prop) (T : ℕ → Option Rank) (D : ℕ → Option Bool) : Prop :=
  ∀ id r d, T id = some r → D id = some d → r.isLocal = true →
    (d = false ↔ K id ∨ r.operates = true ∧ NoOtherAdmin T id)

/-- The only operable administrator is protected otherwise, or is the only enabled one. -/
def Agrees (K : ℕ → Prop) (T : ℕ → Option Rank) : Prop :=
  ∀ id, SoleOperator T id → ¬ K id → NoOtherAdmin T id

/-- The only operable administrator, unless it is protected otherwise, is the same. -/
def SameSole (K : ℕ → Prop) (T T' : ℕ → Option Rank) : Prop :=
  ∀ id, ¬ K id → (SoleOperator T id ↔ SoleOperator T' id)

theorem isLocal_of_soleOperator {r : Rank} (h : SoleOperator T id) (hr : T id = some r) :
  r.isLocal = true
  := by
  obtain ⟨⟨r', hr', hop⟩, -⟩ := h
  rw [hr] at hr'
  obtain rfl := Option.some_inj.mp hr'
  exact r.isLocal_of_enabledAdmin (r.enabledAdmin_of_operates hop)

/-- An operable administrator that is the only enabled one is the only operable one. -/
theorem soleOperator_of_noOtherAdmin {r : Rank} (hr : T id = some r) (hop : r.operates = true)
    (h : NoOtherAdmin T id) :
  SoleOperator T id
  := ⟨⟨r, hr, hop⟩, fun j r' hr' hop' => h j r' hr' (r'.enabledAdmin_of_operates hop')⟩

/-- Computed flags tell the truth exactly when both ways to count agree. -/
theorem Refreshed.truthful_iff (h : Refreshed K T D)
    (hdomain : ∀ id, (D id).isSome = (T id).isSome) :
  Truthful K T D ↔ Agrees K T
  := by
  constructor
  · intro htrue id hsole hid
    obtain ⟨r, hr, hop⟩ := hsole.1
    obtain ⟨d, hd⟩ := Option.isSome_iff_exists.mp ((hdomain id).trans (by rw [hr]; rfl))
    have hlocal := isLocal_of_soleOperator hsole hr
    have hflag := (htrue id r d hr hd hlocal).mpr (.inr hsole)
    exact (((h id r d hr hd hlocal).mp hflag).resolve_left hid).2
  · intro hagrees id r d hr hd hlocal
    rw [h id r d hr hd hlocal]
    constructor
    · rintro (hid | ⟨hop, hno⟩)
      · exact .inl hid
      · exact .inr (soleOperator_of_noOtherAdmin hr hop hno)
    · rintro (hid | hsole)
      · exact .inl hid
      · by_cases hid : K id
        · exact .inl hid
        · obtain ⟨r', hr', hop⟩ := hsole.1
          rw [hr] at hr'
          obtain rfl := Option.some_inj.mp hr'
          exact .inr ⟨hop, hagrees id hsole hid⟩

theorem exists_of_map_isLocal (hlocal : (T' id).map Rank.isLocal = (T id).map Rank.isLocal)
    {r : Rank} (hr : T id = some r) :
  ∃ r', T' id = some r' ∧ r'.isLocal = r.isLocal
  := by
  rw [hr, Option.map_some, Option.map_eq_some_iff] at hlocal
  exact hlocal

/-- Flags that stay tell the truth exactly when the only operable administrator stays. -/
theorem Truthful.of_same (h : Truthful K T D) (hdomain : ∀ id, (D id).isSome = (T id).isSome)
    (hlocal : ∀ id, (T' id).map Rank.isLocal = (T id).map Rank.isLocal) :
  Truthful K T' D ↔ SameSole K T T'
  := by
  constructor
  · intro htrue id hid
    constructor
    · intro hsole
      obtain ⟨r, hr, -⟩ := hsole.1
      obtain ⟨r', hr', hsame⟩ := exists_of_map_isLocal (hlocal id) hr
      obtain ⟨d, hd⟩ := Option.isSome_iff_exists.mp ((hdomain id).trans (by rw [hr]; rfl))
      have hr_local := isLocal_of_soleOperator hsole hr
      have hflag := (h id r d hr hd hr_local).mpr (.inr hsole)
      exact ((htrue id r' d hr' hd (hsame.trans hr_local)).mp hflag).resolve_left hid
    · intro hsole
      obtain ⟨r', hr', -⟩ := hsole.1
      obtain ⟨r, hr, hsame⟩ := exists_of_map_isLocal (hlocal id).symm hr'
      obtain ⟨d, hd⟩ := Option.isSome_iff_exists.mp ((hdomain id).trans (by rw [hr]; rfl))
      have hr_local := isLocal_of_soleOperator hsole hr'
      have hflag := (htrue id r' d hr' hd hr_local).mpr (.inr hsole)
      exact ((h id r d hr hd (hsame.trans hr_local)).mp hflag).resolve_left hid
  · intro hsame id r' d hr' hd hr_local
    obtain ⟨r, hr, hsameLocal⟩ := exists_of_map_isLocal (hlocal id).symm hr'
    rw [h id r d hr hd (hsameLocal.trans hr_local)]
    by_cases hid : K id
    · exact iff_of_true (.inl hid) (.inl hid)
    · exact or_congr Iff.rfl (hsame id hid)

/-- Flags that stay while the protection changes. -/
theorem Truthful.of_protection {K' : ℕ → Prop} (h : Truthful K T D)
    (hdomain : ∀ id, (D id).isSome = (T id).isSome) :
  Truthful K' T D ↔ ∀ id r, T id = some r → r.isLocal = true → ¬ SoleOperator T id →
    (K' id ↔ K id)
  := by
  constructor
  · intro htrue id r hr hlocal hsole
    obtain ⟨d, hd⟩ := Option.isSome_iff_exists.mp ((hdomain id).trans (by rw [hr]; rfl))
    have h' := (htrue id r d hr hd hlocal).symm.trans (h id r d hr hd hlocal)
    simpa [hsole] using h'
  · intro hsame id r d hr hd hlocal
    rw [h id r d hr hd hlocal]
    by_cases hsole : SoleOperator T id
    · exact iff_of_true (.inr hsole) (.inr hsole)
    · exact or_congr (hsame id r hr hlocal hsole).symm Iff.rfl

end Rank

/-! ## Ranks and flags of the collection -/

/-- The rank of an account. -/
def Account.rank (a : Account) : Rank where
  isLocal := a.cls = .localAccount
  enabledAdmin := a.checkIsEnabledAdmin
  operates := a.isOperateAdmin
  enabledAdmin_of_operates h := ((Account.isOperateAdmin_iff a).mp h).1
  isLocal_of_enabledAdmin h := by simpa using ((Account.checkIsEnabledAdmin_iff a).mp h).1

/-- The rank of an account and its flag. -/
def Account.listed (a : Account) : Rank × Bool := (a.rank, a.data.deletable)

/-- The configuration protects the account: it is the emergency account or a fixed account for
the traps. -/
def Config.Protects (cfg : Config) (id : ℕ) : Prop :=
  id = cfg.emergencyLoginAccountId
    ∨ id = cfg.snmpV3TrapAccountId ∧ cfg.snmpV3TrapAccountChangePolicy = 0
      ∧ cfg.snmpV3TrapAccountLimitPolicy ≠ .modifiable

namespace State

/-- The account is protected from its deletion. -/
def Protects (s : State) (id : ℕ) : Prop :=
  s.config.Protects id ∨ s.IsLastOperateAdmin id

/-- The flag of every local account is false exactly when the account is protected. -/
def FlagsTrue (s : State) : Prop :=
  ∀ id a, s.accounts.lookup id = some a → a.cls = .localAccount →
    (a.data.deletable = false ↔ s.Protects id)

/-- The ranks of the accounts. -/
def ranks (s : State) : ℕ → Option Rank := s.view Account.rank

/-- The flags of the accounts. -/
def flags (s : State) : ℕ → Option Bool := s.view fun a => a.data.deletable

variable {s : State} {id : ℕ}

theorem flags_isSome (s : State) (id : ℕ) :
  (s.flags id).isSome = (s.ranks id).isSome
  := by
  unfold flags ranks view
  rw [Option.isSome_map, Option.isSome_map]

theorem isLastOperateAdmin_iff :
  s.IsLastOperateAdmin id ↔ Rank.SoleOperator s.ranks id
  := by
  unfold IsLastOperateAdmin Rank.SoleOperator ranks view
  rw [otherOperateAdmin_iff]
  push Not
  apply and_congr
  · constructor
    · rintro ⟨a, ha, hop⟩
      exact ⟨a.rank, by rw [ha, Option.map_some], hop⟩
    · rintro ⟨r, hr, hop⟩
      obtain ⟨a, ha, rfl⟩ := Option.map_eq_some_iff.mp hr
      exact ⟨a, ha, hop⟩
  · constructor
    · intro h j r hr hop
      obtain ⟨a, ha, rfl⟩ := Option.map_eq_some_iff.mp hr
      by_contra hj
      exact h j hj ⟨a, ha, hop⟩
    · rintro h j hj ⟨a, ha, hop⟩
      exact hj (h j a.rank (by rw [ha, Option.map_some]) hop)

/-- An enabled administrator is the only one counted exactly when there is no other. -/
theorem enabledAdminNumber_eq_one_iff {a : Account} (ha : s.accounts.lookup id = some a)
    (hadmin : a.checkIsEnabledAdmin = true) :
  s.enabledAdminNumber = 1 ↔ Rank.NoOtherAdmin s.ranks id
  := by
  have hpos : 0 < s.enabledAdminNumber := Table.count_pos ha hadmin
  have hle := Table.count_le_one_iff (p := fun _ a => a.checkIsEnabledAdmin) ha hadmin
  have hone : s.enabledAdminNumber = 1 ↔ s.enabledAdminNumber ≤ 1 := by omega
  rw [hone]
  refine hle.trans ⟨?_, ?_⟩
  · intro h j r hr hadmin'
    obtain ⟨b, hb, rfl⟩ := Option.map_eq_some_iff.mp hr
    exact h j b hb hadmin'
  · intro h j b hb hadmin'
    exact h j b.rank (by rw [ranks, view, hb, Option.map_some]) hadmin'

theorem flagsTrue_iff :
  s.FlagsTrue ↔ Rank.Truthful s.config.Protects s.ranks s.flags
  := by
  unfold FlagsTrue Rank.Truthful Protects
  simp only [isLastOperateAdmin_iff]
  constructor
  · intro h id r d hr hd hlocal
    obtain ⟨a, ha, rfl⟩ := Option.map_eq_some_iff.mp hr
    rw [flags, view, ha, Option.map_some, Option.some_inj] at hd
    rw [← hd]
    exact h id a ha (by simpa [Account.rank] using hlocal)
  · intro h id a ha hcls
    apply h id a.rank a.data.deletable
    · rw [ranks, view, ha, Option.map_some]
    · rw [flags, view, ha, Option.map_some]
    · simpa [Account.rank] using hcls

end State

/-- `delete_account` lets an account go that is not protected, as far as it looks at the account
and at the configuration. -/
theorem letsDelete_iff {env : Env} {s : State} {id : ℕ} {a : Account} :
  s.LetsDelete env id a ↔
    ((env.onlineDeletable .localUser).getD true = true ∨ a.data.isOnline = false)
      ∧ a.getPropertyWritable .userName = true ∧ ¬ s.Protects id
  := by
  have hprotects : ¬ s.Protects id ↔ s.checkIsEmergencyUser id = false
      ∧ ¬ (id = s.config.snmpV3TrapAccountId ∧ s.config.snmpV3TrapAccountChangePolicy = 0
        ∧ s.config.snmpV3TrapAccountLimitPolicy ≠ .modifiable) ∧ ¬ s.IsLastOperateAdmin id := by
    unfold State.Protects Config.Protects State.checkIsEmergencyUser
    rw [not_or, not_or, and_assoc, decide_eq_false_iff_not]
  rw [hprotects]
  constructor
  · exact fun h => ⟨h.offline, h.writable, h.notEmergency, h.notFixed, h.notLast⟩
  · rintro ⟨hoffline, hwritable, hemergency, hfixed, hlast⟩
    exact ⟨hoffline, hwritable, hemergency, hlast, hfixed⟩

/-- The deletion of a protected account is refused. -/
theorem exec_deleteAccount_of_protects {env : Env} {s : State} {id : ℕ} {a : Account}
    (validationSkipped : Bool) (hid : id ≠ interChassisAccountId)
    (ha : s.accounts.lookup id = some a) (h : s.Protects id) :
  ∃ e, exec (deleteAccount env id validationSkipped) s = (.error e, s)
  := exec_deleteAccount_of_not_lets validationSkipped hid ha fun hlets =>
    (letsDelete_iff.mp hlets).2.2 h

/-! ## The operations -/

/-- `set_snmp_v3_trap_account`. -/
def setSnmpV3TrapAccount (id : ℕ) : M Unit := do
  let account ← getAccount id .invalidUserName
  refuse (account.data.roleId = RoleType.noAccess.value || account.data.passwordExpiration = 0)
    .v3UserNameNotUsed
  modify fun s => { s with config := { s.config with snmpV3TrapAccountId := id } }
  updateDeletable

/-- The policy that a value stands for. -/
def SnmpV3TrapAccountLimitPolicy.ofValue : ℕ → Option SnmpV3TrapAccountLimitPolicy
  | 0 => some .modifiable
  | 1 => some .nameModifiable
  | 2 => some .notModifiable
  | _ => none

/-- `set_snmp_v3_trap_account_limit_policy`. -/
def setSnmpV3TrapAccountLimitPolicy (value : ℕ) : M Unit := do
  match SnmpV3TrapAccountLimitPolicy.ofValue value with
  | none => throw .snmpV3TrapPolicyNotInList
  | some policy => do
    modify fun s => { s with config := { s.config with snmpV3TrapAccountLimitPolicy := policy } }
    updateDeletable

/-- A change of `SNMPv3TrapAccountChangePolicy`. -/
def setSnmpV3TrapAccountChangePolicy (value : ℕ) : M Unit := do
  refuse (value != 0 && value != 1) .snmpV3TrapPolicyNotInList
  modify fun s => { s with config := { s.config with snmpV3TrapAccountChangePolicy := value } }
  updateDeletable

/-- The operations of a run. -/
inductive FlagOp where
  | newAccount (info : Account.Info) (isIpmiOrSnmp : Bool)
  | deleteAccount (id : ℕ) (validationSkipped : Bool)
  | setEnabled (id : ℕ) (status : Bool)
  | setRoleId (id roleId : ℕ) (ipmiPrivilege : Option IpmiPrivilege)
  | setLoginInterface (id : ℕ) (interfaces : List String)
  | setIpmiUserAccess (req : UserAccessReq) (ctx : IpmiCtx)
  | updateInactiveStatus (order : List ℕ)
  | setEmergencyAccount (id : ℕ)
  | setSnmpV3TrapAccount (id : ℕ)
  | setSnmpV3TrapAccountLimitPolicy (value : ℕ)
  | setSnmpV3TrapAccountChangePolicy (value : ℕ)

/-- An operation, and what it sees of the rest of the system. -/
structure FlagCall where
  env : Env
  op : FlagOp

/-- The program of a call. -/
def FlagCall.prog (c : FlagCall) : M Unit :=
  match c.op with
  | .newAccount info isIpmiOrSnmp => do
      let _ ← BmcAccount.newAccount c.env info isIpmiOrSnmp
  | .deleteAccount id validationSkipped => BmcAccount.deleteAccount c.env id validationSkipped
  | .setEnabled id status => BmcAccount.setEnabled c.env id status
  | .setRoleId id roleId ipmiPrivilege => BmcAccount.setRoleId c.env id roleId ipmiPrivilege
  | .setLoginInterface id interfaces => BmcAccount.setLoginInterface c.env id interfaces
  | .setIpmiUserAccess req ctx => BmcAccount.setIpmiUserAccess c.env req ctx
  | .updateInactiveStatus order => BmcAccount.updateInactiveStatus c.env order
  | .setEmergencyAccount id => BmcAccount.setEmergencyAccount c.env id
  | .setSnmpV3TrapAccount id => BmcAccount.setSnmpV3TrapAccount id
  | .setSnmpV3TrapAccountLimitPolicy value => BmcAccount.setSnmpV3TrapAccountLimitPolicy value
  | .setSnmpV3TrapAccountChangePolicy value => BmcAccount.setSnmpV3TrapAccountChangePolicy value

/-- The state after a call, whether it succeeds or raises. -/
def flagStep (s : State) (c : FlagCall) : State := after c.prog s

/-! ### What a call asks for -/

namespace Account

/-- The account with another value of `Enabled`. -/
def withEnabled (status : Bool) (a : Account) : Account :=
  { a with data := { a.data with enabled := status } }

/-- The account with another IPMI privilege. -/
def withPrivilege (privilege : IpmiPrivilege) (a : Account) : Account :=
  { a with ipmi := { a.ipmi with privilege1 := privilege } }

/-- The account with another role and its privilege. -/
def withRoleAndPrivilege (roleId : ℕ) (privilege : IpmiPrivilege) (a : Account) : Account :=
  { a with data := { a.data with roleId := roleId } }.withPrivilege privilege

/-- The account with other login interfaces. -/
def withInterface (interface : ℕ) (a : Account) : Account :=
  { a with data := { a.data with loginInterface := interface } }

/-- The rank that a new account is given. -/
def newRank (env : Env) (info : Info) : Rank := (initial env info "" none "" "").rank

end Account

/-- The ranks with one account changed. -/
def State.ranksWith (s : State) (id : ℕ) (f : Account → Account) : ℕ → Option Rank :=
  Function.update s.ranks id ((s.accounts.lookup id).map fun a => (f a).rank)

/-- The accounts as the sweep leaves them, up to the first account that cannot be disabled. -/
def State.disableInactive (env : Env) (limit : ℕ) : List ℕ → State → State
  | [], s => s
  | id :: order, s =>
    match (s.accounts.lookup id).map
        (Account.updateInactiveStatus env s.config (s.enabledAdminNumber = 1) limit id) with
    | some (.ok a) => State.disableInactive env limit order (s.modifyAccount id fun _ => a)
    | _ => s

/-- What `set_emergency_account` accepts. -/
def State.AcceptsEmergency (s : State) (id : ℕ) : Prop :=
  id = 0 ∨ minUserNum ≤ id ∧ id ≤ maxUserNum ∧ ∃ a, s.accounts.lookup id = some a ∧
    a.data.roleId = RoleType.administrator.value ∧ a.data.enabled = true

/-- The call returns. -/
def FlagCall.Returns (s : State) (c : FlagCall) : Prop := (exec c.prog s).1 = .ok ()

/-- The call, if it changes anything, leaves the flags true. Where it computes them, the only
operable administrator after it is protected by the configuration or is the only enabled
administrator; where it does not, the only operable administrator, unless the configuration
protects it, is the same as before. -/
def FlagCall.Suits (s : State) (c : FlagCall) : Prop :=
  match c.op with
  | .newAccount info isIpmiOrSnmp =>
      ∀ id, (exec (newAccount c.env info isIpmiOrSnmp) s).1 = .ok id →
        Rank.Agrees s.config.Protects
          (Function.update s.ranks id (some (Account.newRank c.env info)))
  | .deleteAccount id _ =>
      c.Returns s → id ≠ interChassisAccountId →
        Rank.Agrees s.config.Protects (Function.update s.ranks id none)
  | .setEnabled id status =>
      c.Returns s →
        Rank.SameSole s.config.Protects s.ranks (s.ranksWith id (Account.withEnabled status))
  | .setRoleId id roleId ipmiPrivilege =>
      c.Returns s →
        Rank.Agrees s.config.Protects (s.ranksWith id (Account.withRoleAndPrivilege roleId
          (ipmiPrivilege.getD (Account.privilegeOfRole roleId))))
  | .setLoginInterface id interfaces =>
      c.Returns s →
        Rank.SameSole s.config.Protects s.ranks
          (s.ranksWith id (Account.withInterface (coverInterfaceStrToNum interfaces)))
  | .setIpmiUserAccess req ctx =>
      c.Returns s → ∀ privilege, IpmiPrivilege.ofValue req.userPrivilege = some privilege →
        if setsRole c.env req ctx then
          Rank.Agrees s.config.Protects (s.ranksWith req.userId
            (Account.withRoleAndPrivilege (privilegeToRole privilege).value privilege))
        else
          Rank.SameSole s.config.Protects s.ranks
            (s.ranksWith req.userId (Account.withPrivilege privilege))
  | .updateInactiveStatus order =>
      s.config.inactiveDaysThreshold ≠ 0 →
        Rank.SameSole s.config.Protects s.ranks
          (s.disableInactive c.env (s.config.inactiveDaysThreshold * daySecondCount) order).ranks
  | .setEmergencyAccount id =>
      s.AcceptsEmergency id →
        if s.config.emergencyLoginAccountId = 0
            ∨ (s.accounts.lookup s.config.emergencyLoginAccountId).isSome then
          Rank.Agrees { s.config with emergencyLoginAccountId := id }.Protects s.ranks
        else
          -- the old account is missing, and the flags are not computed
          ∀ j r, s.ranks j = some r → r.isLocal = true → ¬ Rank.SoleOperator s.ranks j →
            ({ s.config with emergencyLoginAccountId := id }.Protects j ↔ s.config.Protects j)
  | .setSnmpV3TrapAccount id =>
      c.Returns s → Rank.Agrees { s.config with snmpV3TrapAccountId := id }.Protects s.ranks
  | .setSnmpV3TrapAccountLimitPolicy value =>
      ∀ policy, SnmpV3TrapAccountLimitPolicy.ofValue value = some policy →
        Rank.Agrees { s.config with snmpV3TrapAccountLimitPolicy := policy }.Protects s.ranks
  | .setSnmpV3TrapAccountChangePolicy value =>
      c.Returns s →
        Rank.Agrees { s.config with snmpV3TrapAccountChangePolicy := value }.Protects s.ranks

/-! ## What the flags depend on -/

/-- The protection by the configuration, the ranks and the flags. -/
structure Summary where
  protects : ℕ → Prop
  ranks : ℕ → Option Rank
  flags : ℕ → Option Bool

namespace State

/-- The summary of a state. -/
def summary (s : State) : Summary := ⟨s.config.Protects, s.ranks, s.flags⟩

/-- The flags have been computed from these. -/
def Fresh (K : ℕ → Prop) (T : ℕ → Option Rank) (s : State) : Prop :=
  ∃ D, s.summary = ⟨K, T, D⟩ ∧ Rank.Refreshed K T D

variable {s s' : State} {id : ℕ} {K : ℕ → Prop} {T : ℕ → Option Rank}

theorem flagsTrue_congr (h : s'.summary = s.summary) :
  s'.FlagsTrue ↔ s.FlagsTrue
  := by
  rw [flagsTrue_iff, flagsTrue_iff]
  have hprotects : s'.config.Protects = s.config.Protects := congrArg Summary.protects h
  have hranks : s'.ranks = s.ranks := congrArg Summary.ranks h
  have hflags : s'.flags = s.flags := congrArg Summary.flags h
  rw [hprotects, hranks, hflags]

theorem Fresh.flagsTrue_iff (h : s.Fresh K T) :
  s.FlagsTrue ↔ Rank.Agrees K T
  := by
  obtain ⟨D, hsummary, hfresh⟩ := h
  cases hsummary
  rw [State.flagsTrue_iff]
  exact hfresh.truthful_iff s.flags_isSome

theorem Fresh.of_summary (h : s.Fresh K T) (hsame : s'.summary = s.summary) :
  s'.Fresh K T
  := by
  unfold Fresh
  rw [hsame]
  exact h

/-- Flags that are left as they are. -/
theorem FlagsTrue.of_same (hs : s.FlagsTrue)
    (hsummary : s'.summary = ⟨s.config.Protects, T, s.flags⟩)
    (hlocal : ∀ id, (T id).map Rank.isLocal = (s.ranks id).map Rank.isLocal) :
  s'.FlagsTrue ↔ Rank.SameSole s.config.Protects s.ranks T
  := by
  rw [State.flagsTrue_iff] at hs ⊢
  rw [← hs.of_same s.flags_isSome hlocal]
  have hprotects : s'.config.Protects = s.config.Protects := congrArg Summary.protects hsummary
  have hranks : s'.ranks = T := congrArg Summary.ranks hsummary
  have hflags : s'.flags = s.flags := congrArg Summary.flags hsummary
  rw [hprotects, hranks, hflags]

theorem summary_of_accounts_eq (haccounts : s'.accounts = s.accounts)
    (hprotects : s'.config.Protects = s.config.Protects) :
  s'.summary = s.summary
  := by
  unfold summary ranks flags view
  rw [haccounts, hprotects]

theorem summary_mapAccounts {f : ℕ → Account → Account}
    (h : ∀ id a, (f id a).listed = a.listed) :
  { s with accounts := s.accounts.map f }.summary = s.summary
  := by
  have hranks : { s with accounts := s.accounts.map f }.ranks = s.ranks :=
    view_mapAccounts fun id a => congrArg Prod.fst (h id a)
  have hflags : { s with accounts := s.accounts.map f }.flags = s.flags :=
    view_mapAccounts fun id a => congrArg Prod.snd (h id a)
  unfold summary
  rw [hranks, hflags]

/-- A change of one account that leaves its flag. -/
theorem summary_modifyAccount {f : Account → Account}
    (h : ∀ a, s.accounts.lookup id = some a → (f a).data.deletable = a.data.deletable) :
  (s.modifyAccount id f).summary = ⟨s.config.Protects, s.ranksWith id f, s.flags⟩
  := by
  have hranks : (s.modifyAccount id f).ranks = s.ranksWith id f := view_modifyAccount s id f
  have hflags : (s.modifyAccount id f).flags = s.flags := view_modifyAccount_same h
  unfold summary
  rw [hranks, hflags]
  rfl

theorem ranksWith_congr {f g : Account → Account}
    (h : ∀ a, s.accounts.lookup id = some a → (f a).rank = (g a).rank) :
  s.ranksWith id f = s.ranksWith id g
  := by
  unfold ranksWith
  cases ha : s.accounts.lookup id with
  | none => rfl
  | some a => rw [Option.map_some, Option.map_some, h a ha]

theorem ranksWith_same {f : Account → Account}
    (h : ∀ a, s.accounts.lookup id = some a → (f a).rank = a.rank) :
  s.ranksWith id f = s.ranks
  := by
  rw [ranksWith, Function.update_eq_self_iff, ranks, view]
  cases ha : s.accounts.lookup id with
  | none => rfl
  | some a => rw [Option.map_some, Option.map_some, h a ha]

theorem modifyAccount_modifyAccount (f g : Account → Account) :
  (s.modifyAccount id f).modifyAccount id g = s.modifyAccount id fun a => g (f a)
  := by
  unfold modifyAccount
  rw [Table.modify_modify]
  rfl

/-- Two changes of one account. -/
theorem ranksWith_modifyAccount {f g h : Account → Account}
    (hrank : ∀ a, s.accounts.lookup id = some a → (g (f a)).rank = (h a).rank) :
  (s.modifyAccount id f).ranksWith id g = s.ranksWith id h
  := by
  have hranks : (s.modifyAccount id f).ranks = s.ranksWith id f := view_modifyAccount s id f
  have hlookup : (s.modifyAccount id f).accounts.lookup id = (s.accounts.lookup id).map f := by
    simp [modifyAccount]
  unfold ranksWith at hranks ⊢
  rw [hranks, Function.update_idem, hlookup, Option.map_map]
  congr 1
  cases ha : s.accounts.lookup id with
  | none => rfl
  | some a => exact congrArg some (hrank a ha)

theorem summary_modifyAccount_same {f : Account → Account}
    (h : ∀ a, s.accounts.lookup id = some a → (f a).listed = a.listed) :
  (s.modifyAccount id f).summary = s.summary
  := by
  rw [summary_modifyAccount fun a ha => congrArg Prod.snd (h a ha),
    ranksWith_same fun a ha => congrArg Prod.fst (h a ha)]
  rfl

/-- A change that leaves the class leaves which accounts are local. -/
theorem map_isLocal_ranksWith {f : Account → Account}
    (h : ∀ a, s.accounts.lookup id = some a → (f a).cls = a.cls) (j : ℕ) :
  (s.ranksWith id f j).map Rank.isLocal = (s.ranks j).map Rank.isLocal
  := by
  unfold ranksWith
  by_cases hj : j = id
  · subst hj
    rw [Function.update_self, ranks, view]
    cases ha : s.accounts.lookup j with
    | none => rfl
    | some a => simp [Account.rank, h a ha]
  · rw [Function.update_of_ne hj]

end State

/-- Of the privilege the rank tells only whether it is that of an administrator. -/
theorem rank_congr_admin {a b : Account} (hcls : a.cls = b.cls)
    (hprivilege : a.ipmi.privilege1 = .admin ↔ b.ipmi.privilege1 = .admin)
    (hrole : a.data.roleId = b.data.roleId) (henabled : a.data.enabled = b.data.enabled)
    (hinterface : a.data.loginInterface = b.data.loginInterface) :
  a.rank = b.rank
  := by
  have hadmin : a.checkIsEnabledAdmin = b.checkIsEnabledAdmin := by
    rw [Bool.eq_iff_iff, Account.checkIsEnabledAdmin_iff, Account.checkIsEnabledAdmin_iff, hcls,
      hprivilege, hrole, henabled]
  apply Rank.ext
  · simp [Account.rank, hcls]
  · exact hadmin
  · change a.isOperateAdmin = b.isOperateAdmin
    rw [Bool.eq_iff_iff, Account.isOperateAdmin_iff, Account.isOperateAdmin_iff, hadmin, hinterface]

theorem rank_congr {a b : Account} (h : a.standing = b.standing) :
  a.rank = b.rank
  := by
  simp only [Account.standing, Standing.mk.injEq] at h
  obtain ⟨hcls, hprivilege, hrole, henabled, hinterface⟩ := h
  exact rank_congr_admin hcls (by rw [hprivilege]) hrole henabled hinterface

/-- Accounts that are not local all have the same rank. -/
theorem rank_of_not_local {a b : Account} (ha : a.cls ≠ .localAccount)
    (hb : b.cls ≠ .localAccount) :
  a.rank = b.rank
  := by
  have hnone (c : Account) (hc : c.cls ≠ .localAccount) :
      c.rank.isLocal = false ∧ c.rank.enabledAdmin = false ∧ c.rank.operates = false := by
    have hlocal : c.rank.isLocal = false := by simpa [Account.rank] using hc
    have hadmin : c.rank.enabledAdmin = false := by
      by_contra h
      rw [c.rank.isLocal_of_enabledAdmin (by simpa using h)] at hlocal
      cases hlocal
    refine ⟨hlocal, hadmin, ?_⟩
    by_contra h
    rw [c.rank.enabledAdmin_of_operates (by simpa using h)] at hadmin
    cases hadmin
  obtain ⟨ha₁, ha₂, ha₃⟩ := hnone a ha
  obtain ⟨hb₁, hb₂, hb₃⟩ := hnone b hb
  exact Rank.ext (ha₁.trans hb₁.symm) (ha₂.trans hb₂.symm) (ha₃.trans hb₃.symm)

/-! ### Computing the flags -/

theorem deletable_updateDeletable {cfg : Config} {only : Bool} {id : ℕ} {a : Account}
    (hcls : a.cls = .localAccount) :
  (a.updateDeletable cfg only id).data.deletable = false ↔
    cfg.Protects id ∨ only = true ∧ a.isOperateAdmin = true
  := by
  unfold Account.updateDeletable Config.Protects
  simp only [hcls]
  rw [Bool.not_eq_false', Bool.or_eq_true, Bool.or_eq_true, Bool.and_eq_true, Bool.and_eq_true,
    Bool.and_eq_true]
  simp [and_assoc]

/-- Computing the flags. -/
theorem fresh_updateDeletable (s : State) :
  (after updateDeletable s).Fresh s.config.Protects s.ranks
  := by
  have hranks : (after updateDeletable s).ranks = s.ranks :=
    State.view_mapAccounts fun _ _ => rank_congr (Account.standing_updateDeletable ..)
  refine ⟨(after updateDeletable s).flags, ?_, ?_⟩
  · unfold State.summary
    rw [hranks]
    rfl
  · intro id r d hr hd hlocal
    obtain ⟨a, ha, rfl⟩ := Option.map_eq_some_iff.mp hr
    have hcls : a.cls = .localAccount := by simpa [Account.rank] using hlocal
    have hflag : (after updateDeletable s).flags id
        = some (a.updateDeletable s.config (s.enabledAdminNumber = 1) id).data.deletable := by
      simp only [State.flags, State.view, after, updateDeletable, exec_modify, Table.lookup_map, ha,
        Option.map_some]
    rw [hflag, Option.some_inj] at hd
    rw [← hd, deletable_updateDeletable hcls, decide_eq_true_eq]
    apply or_congr Iff.rfl
    constructor
    · rintro ⟨hone, hop⟩
      exact ⟨hop, (State.enabledAdminNumber_eq_one_iff ha
        (a.rank.enabledAdmin_of_operates hop)).mp hone⟩
    · rintro ⟨hop, hno⟩
      exact ⟨(State.enabledAdminNumber_eq_one_iff ha
        (a.rank.enabledAdmin_of_operates hop)).mpr hno, hop⟩

/-! ## One call -/

section Call

variable {s : State} {id : ℕ} {Φ : Summary → Prop} {E : State → Prop} {env : Env}

/-- A change of one account that is not seen. -/
theorem updateAccount_summary {f : Config → Account → Account}
    (h : ∀ cfg a, (f cfg a).listed = a.listed) :
  Spec (fun s => Φ s.summary) (updateAccount id f) (fun _ s => Φ s.summary) E
  := by
  apply Spec.modify
  intro s hs
  have hsame : (s.modifyAccount id (f s.config)).summary = s.summary :=
    State.summary_modifyAccount_same fun a _ => h s.config a
  rwa [hsame]

theorem callAccount_summary {f : Config → Account → Except Err Account}
    (h : ∀ cfg a a', f cfg a = .ok a' → a'.listed = a.listed) :
  Keeps (fun s => Φ s.summary) (callAccount id f)
  := by
  intro s hs
  unfold callAccount
  rw [exec_bind_ok (exec_get s)]
  cases ha : s.accounts.lookup id with
  | none => exact hs
  | some a =>
    simp only
    cases hf : f s.config a with
    | error e => exact hs
    | ok a' =>
      have hsame : (s.modifyAccount id fun _ => a').summary = s.summary := by
        apply State.summary_modifyAccount_same
        intro b hb
        rw [ha] at hb
        rw [← Option.some_inj.mp hb]
        exact h s.config a a' hf
      change Φ (s.modifyAccount id fun _ => a').summary
      rwa [hsame]

theorem modify_summary {f : State → State} (haccounts : ∀ s, (f s).accounts = s.accounts)
    (hconfig : ∀ s, (f s).config = s.config) :
  Spec (fun s => Φ s.summary) (modify f : M Unit) (fun _ s => Φ s.summary) E
  := by
  apply Spec.modify
  intro s hs
  have hsame : (f s).summary = s.summary :=
    State.summary_of_accounts_eq (haccounts s) (by rw [hconfig])
  rwa [hsame]

/-- A program that raises without a trace, and otherwise leaves the flags true just if `P`. -/
theorem flagsTrue_after_iff {m : M Unit} {P : Prop} (hs : s.FlagsTrue)
    (hspec : Spec (· = s) m (fun _ s' => s'.FlagsTrue ↔ P) fun s' => s'.summary = s.summary) :
  (after m s).FlagsTrue ↔ ((exec m s).1 = .ok () → P)
  := by
  have h := hspec s rfl
  unfold after
  rcases hx : exec m s with ⟨e | u, s'⟩
  · simp only [hx] at h ⊢
    exact iff_of_true ((State.flagsTrue_congr h).mpr hs) fun h => nomatch h
  · simp only [hx] at h ⊢
    rw [h]
    exact ⟨fun hP _ => hP, fun hP => hP trivial⟩

theorem listed_updateInactiveUserStartTime (env : Env) (cfg : Config) (a : Account) :
  (a.updateInactiveUserStartTime env cfg).listed = a.listed
  := by
  refine Prod.ext (rank_congr (Account.standing_updateInactiveUserStartTime env cfg a)) ?_
  unfold Account.updateInactiveUserStartTime
  split
  · split_ifs <;> rfl
  · rfl

/-- A method that returns has changed the account. -/
theorem callAccount_exact (f : Config → Account → Except Err Account) (s : State) :
  Spec (· = s) (callAccount id f)
    (fun _ s' => ∃ a a', s.accounts.lookup id = some a ∧ f s.config a = .ok a' ∧
      s' = s.modifyAccount id fun _ => a')
    (· = s)
  := by
  rintro s' rfl
  cases ha : s'.accounts.lookup id with
  | none =>
    have hexec : exec (callAccount id f) s' = (.error .indexNil, s') := by
      unfold callAccount
      rw [exec_bind_ok (exec_get s'), ha]
      rfl
    rw [hexec]
  | some a =>
    rw [exec_callAccount ha]
    cases hf : f s'.config a with
    | error e => rfl
    | ok a' => exact ⟨a, a', rfl, hf, rfl⟩

/-- The summary when one account has been replaced by one with its flag and the rank that `g`
gives. -/
theorem summary_replace {g : Account → Account} {a a' : Account}
    (ha : s.accounts.lookup id = some a) (hrank : a'.rank = (g a).rank)
    (hflag : a'.data.deletable = a.data.deletable) :
  (s.modifyAccount id fun _ => a').summary = ⟨s.config.Protects, s.ranksWith id g, s.flags⟩
  := by
  have hlookup (b : Account) (hb : s.accounts.lookup id = some b) : b = a := by
    rw [ha] at hb
    exact (Option.some_inj.mp hb).symm
  rw [State.summary_modifyAccount fun b hb => by rw [hlookup b hb, hflag],
    State.ranksWith_congr (g := g) fun b hb => by rw [hlookup b hb, hrank]]

/-- A method that raises or changes the rank as `g` does. -/
theorem callAccount_changes {f : Config → Account → Except Err Account} {g : Account → Account}
    (h : ∀ cfg a a', f cfg a = .ok a' → a'.rank = (g a).rank ∧ a'.data.deletable = a.data.deletable)
    (s : State) :
  Spec (· = s) (callAccount id f)
    (fun _ s' => s'.summary = ⟨s.config.Protects, s.ranksWith id g, s.flags⟩)
    fun s' => s'.summary = s.summary
  := by
  apply (callAccount_exact f s).weaken fun _ h => h
  · rintro _ s' ⟨a, a', ha, hf, rfl⟩
    exact summary_replace ha (h s.config a a' hf).1 (h s.config a a' hf).2
  · rintro _ rfl
    rfl

/-- Ranks are the same where both accounts have the class of a third one, and the same standing
if it is local. -/
theorem rank_eq_of_standing {a a' b : Account} (ha : a'.cls = a.cls) (hb : b.cls = a.cls)
    (h : a.cls = .localAccount → a'.standing = b.standing) :
  a'.rank = b.rank
  := by
  by_cases hcls : a.cls = .localAccount
  · exact rank_congr (h hcls)
  · exact rank_of_not_local (ha ▸ hcls) (hb ▸ hcls)

/-! ### Changes that leave the flags -/

theorem setEnabled_kept {status : Bool} {a a' : Account} (h : a.setEnabled env status = .ok a') :
  a'.cls = a.cls ∧ a'.data.deletable = a.data.deletable
  := by
  unfold Account.setEnabled at h
  cases hcls : a.cls <;> simp only [hcls] at h
  all_goals try split_ifs at h
  all_goals try cases h
  · cases hcheck : a.checkIpmiPassword env with
    | error e =>
      rw [hcheck] at h
      cases h
    | ok u =>
      rw [hcheck] at h
      cases h
      exact ⟨hcls, rfl⟩
  all_goals first
    | exact ⟨hcls, rfl⟩
    | exact ⟨rfl, rfl⟩

theorem rank_setEnabled {status : Bool} {a a' : Account} (h : a.setEnabled env status = .ok a') :
  a'.rank = (a.withEnabled status).rank
  := rank_eq_of_standing (setEnabled_kept h).1 rfl fun hcls => Account.standing_setEnabled hcls h

/-- A change of one account, seen as `g`, that leaves the flags. -/
def Changes (s : State) (id : ℕ) (g : Account → Account) (s' : State) : Prop :=
  s'.summary = ⟨s.config.Protects, s.ranksWith id g, s.flags⟩

theorem Changes.of_summary {g : Account → Account} {s' s'' : State} (h : Changes s id g s')
    (hsame : s''.summary = s'.summary) :
  Changes s id g s''
  := hsame.trans h

theorem setEnabled_changes (env : Env) (status : Bool) (s : State) :
  Spec (· = s) (setEnabled env id status) (fun _ => Changes s id (Account.withEnabled status))
    fun s' => s'.summary = s.summary
  := by
  have hstill (s' : State) (h : s' = s) : s'.summary = s.summary := congrArg _ h
  unfold setEnabled
  apply Spec.keeps_bind refuseLastOperateAdmin_keeps hstill
  intro _
  apply Spec.keeps_bind refuseEmergencyUser_keeps hstill
  intro _
  apply Spec.bind (Q := fun _ => Changes s id (Account.withEnabled status))
  · apply callAccount_changes
    exact fun _ _ _ h => ⟨rank_setEnabled h, (setEnabled_kept h).2⟩
  intro _
  apply Spec.onlyIf
  · intro _
    exact updateAccount_summary (Φ := (· = _)) fun _ _ => listed_updateInactiveUserStartTime ..
  · exact fun _ _ h => h

theorem setLoginInterface_kept {interface : ℕ} {a a' : Account}
    (h : a.setLoginInterface env interface = .ok a') :
  a'.cls = a.cls ∧ a'.data.deletable = a.data.deletable
  := by
  unfold Account.setLoginInterface at h
  cases hcls : a.cls <;> simp only [hcls] at h
  all_goals try split_ifs at h
  all_goals
    cases h
    first
      | exact ⟨hcls, rfl⟩
      | exact ⟨rfl, rfl⟩

theorem rank_setLoginInterface {interface : ℕ} {a a' : Account}
    (h : a.setLoginInterface env interface = .ok a') :
  a'.rank = (a.withInterface interface).rank
  := rank_eq_of_standing (setLoginInterface_kept h).1 rfl fun hcls =>
    Account.standing_setLoginInterface hcls h

theorem callAccount_setLoginInterface_changes (env : Env) (interface : ℕ) (s : State) :
  Spec (· = s) (callAccount id fun _ => Account.setLoginInterface env interface)
    (fun _ => Changes s id (Account.withInterface interface)) fun s' => s'.summary = s.summary
  := by
  apply callAccount_changes
  exact fun _ _ _ h => ⟨rank_setLoginInterface h, (setLoginInterface_kept h).2⟩

theorem setLoginInterface_changes (env : Env) (interfaces : List String) (s : State) :
  Spec (· = s) (setLoginInterface env id interfaces)
    (fun _ => Changes s id (Account.withInterface (coverInterfaceStrToNum interfaces)))
    fun s' => s'.summary = s.summary
  := by
  have hstill (s' : State) (h : s' = s) : s'.summary = s.summary := congrArg _ h
  unfold setLoginInterface
  apply Spec.keeps_bind getAccount_keeps hstill
  intro account
  apply Spec.keeps_bind Keeps.refuse hstill
  intro _
  apply Spec.keeps_bind checkIsLastOperateAdmin_keeps hstill
  intro last
  apply Spec.keeps_bind Keeps.refuse hstill
  intro _
  apply Spec.bind (Q := fun _ s₁ => s₁.summary = s.summary ∧
    s₁.ranksWith id (Account.withInterface (coverInterfaceStrToNum interfaces))
      = s.ranksWith id (Account.withInterface (coverInterfaceStrToNum interfaces)))
  · apply Spec.onlyIf
    · intro _
      apply Spec.modify
      rintro _ rfl
      exact ⟨State.summary_modifyAccount_same fun _ _ => rfl,
        State.ranksWith_modifyAccount fun _ _ => rfl⟩
    · rintro - _ rfl
      exact ⟨rfl, rfl⟩
  rintro _ s₁ ⟨hsummary, hranks⟩
  apply (callAccount_setLoginInterface_changes env _ s₁).weaken (fun _ h => h) _
    (fun _ h => h.trans hsummary) s₁ rfl
  intro _ s' h
  have hprotects : s₁.config.Protects = s.config.Protects := congrArg Summary.protects hsummary
  have hflags : s₁.flags = s.flags := congrArg Summary.flags hsummary
  unfold Changes at h ⊢
  rwa [hranks, hprotects, hflags] at h

/-! ### Changes that compute the flags -/

theorem setRoleId_kept {cfg : Config} {roleId : ℕ} {a a' : Account}
    (h : a.setRoleId env cfg roleId = .ok a') :
  a'.cls = a.cls ∧ a'.data.deletable = a.data.deletable
  := by
  have hprivileges (b : Account) : (b.updatePrivileges env cfg none).cls = b.cls
      ∧ (b.updatePrivileges env cfg none).data.deletable = b.data.deletable := by
    unfold Account.updatePrivileges
    simp only
    split <;> exact ⟨rfl, rfl⟩
  unfold Account.setRoleId at h
  cases hcls : a.cls <;> simp only [hcls] at h
  all_goals try split_ifs at h
  all_goals cases h
  all_goals first
    | exact hprivileges _
    | exact ⟨hcls, rfl⟩

theorem admin_setIpmiUserPrivilege (privilege : IpmiPrivilege) (a : Account) :
  (a.setIpmiUserPrivilege privilege).ipmi.privilege1 = .admin ↔ privilege = .admin
  := by
  simp only [Account.setIpmiUserPrivilege]
  split_ifs with hnone
  · rw [hnone]
    decide
  · rfl

/-- The two changes of the account in `set_role_id`. -/
theorem rank_setRoleId {cfg : Config} {roleId : ℕ} {privilege : IpmiPrivilege} {a a' : Account}
    (h : a.setRoleId env cfg roleId = .ok a') :
  (a'.setIpmiUserPrivilege privilege).rank = (a.withRoleAndPrivilege roleId privilege).rank
  := by
  by_cases hcls : a.cls = .localAccount
  · have hstanding := Account.standing_setRoleId hcls h
    simp only [Account.standing, Standing.mk.injEq] at hstanding
    obtain ⟨hcls', -, hrole, henabled, hinterface⟩ := hstanding
    apply rank_congr_admin
    · exact hcls'
    · exact admin_setIpmiUserPrivilege privilege a'
    · exact hrole
    · exact henabled
    · exact hinterface
  · exact rank_of_not_local ((setRoleId_kept h).1 ▸ hcls) hcls

theorem limitFirstChannel_keeps_of {p : IpmiPrivilege} {I : State → Prop}
    (hI : ∀ s s' : State, s'.accounts = s.accounts → s'.config = s.config → I s → I s') :
  Spec I (limitFirstChannel id p) (fun _ => I) E
  := by
  unfold limitFirstChannel
  apply Spec.bind Spec.get
  intro s₀
  have hskip : Spec (fun s => s₀ = s ∧ I s) (pure () : M Unit) (fun _ => I) E :=
    Spec.pure fun _ h => h.2
  apply Spec.ite _ fun _ => hskip
  intro _
  cases s₀.channel id 1 with
  | none => exact hskip
  | some row =>
    apply Spec.modify
    exact fun s h => hI s _ rfl rfl h.2

/-- Computing the flags when the rest of the summary is known. -/
theorem updateDeletable_fresh {K : ℕ → Prop} {T : ℕ → Option Rank} {D : ℕ → Option Bool} :
  Spec (fun s => s.summary = ⟨K, T, D⟩) updateDeletable (fun _ => State.Fresh K T) E
  := by
  intro s hs
  have hfresh := fresh_updateDeletable s
  have hprotects : s.config.Protects = K := congrArg Summary.protects hs
  have hranks : s.ranks = T := congrArg Summary.ranks hs
  rwa [hprotects, hranks] at hfresh

/-- Whether the account shows the privilege of an administrator. -/
def State.ShowsPrivilege (id : ℕ) (privilege : IpmiPrivilege) (s : State) : Prop :=
  ∀ a, s.accounts.lookup id = some a → (a.ipmi.privilege1 = .admin ↔ privilege = .admin)

theorem updateDeletable_showsPrivilege {privilege : IpmiPrivilege}
    (h : s.ShowsPrivilege id privilege) :
  (after updateDeletable s).ShowsPrivilege id privilege
  := by
  intro b hb
  simp only [after, updateDeletable, exec_modify, Table.lookup_map, Option.map_eq_some_iff] at hb
  obtain ⟨a, ha, rfl⟩ := hb
  rw [← h a ha]
  unfold Account.updateDeletable
  split <;> rfl

theorem setRoleId_fresh (env : Env) (roleId : ℕ) (privilege : Option IpmiPrivilege) (s : State) :
  Spec (· = s) (setRoleId env id roleId privilege)
    (fun _ s' => s'.Fresh s.config.Protects (s.ranksWith id (Account.withRoleAndPrivilege roleId
        (privilege.getD (Account.privilegeOfRole roleId))))
      ∧ s'.ShowsPrivilege id (privilege.getD (Account.privilegeOfRole roleId)))
    fun s' => s'.summary = s.summary
  := by
  have hstill (s' : State) (h : s' = s) : s'.summary = s.summary := congrArg _ h
  unfold setRoleId
  apply Spec.keeps_bind getAccount_keeps hstill
  intro _
  apply Spec.keeps_bind Keeps.refuse hstill
  intro _
  apply Spec.keeps_bind refuseLastOperateAdmin_keeps hstill
  intro _
  apply Spec.keeps_bind refuseEmergencyUser_keeps hstill
  intro _
  apply Spec.bind ((callAccount_exact _ s).weaken (fun _ h => h) (fun _ _ h => h) hstill)
  intro _
  apply Spec.bind (Q := fun _ s' => Changes s id (Account.withRoleAndPrivilege roleId
      (privilege.getD (Account.privilegeOfRole roleId))) s'
    ∧ s'.ShowsPrivilege id (privilege.getD (Account.privilegeOfRole roleId)))
  · apply Spec.modify
    rintro _ ⟨a, a', ha, hset, rfl⟩
    constructor
    · change ((s.modifyAccount id fun _ => a').modifyAccount id _).summary = _
      rw [State.modifyAccount_modifyAccount]
      exact summary_replace ha (rank_setRoleId hset) (setRoleId_kept hset).2
    · intro b hb
      simp only [State.modifyAccount, Table.lookup_modify_self, Option.map_eq_some_iff] at hb
      obtain ⟨b', -, rfl⟩ := hb
      exact admin_setIpmiUserPrivilege _ b'
  intro _
  apply Spec.bind (limitFirstChannel_keeps_of _)
  · rintro _ s' ⟨hchanges, hshows⟩
    exact ⟨updateDeletable_fresh (E := fun _ => False) s' hchanges,
      updateDeletable_showsPrivilege hshows⟩
  · rintro s₁ s₂ haccounts hconfig ⟨hchanges, hshows⟩
    refine ⟨hchanges.of_summary (State.summary_of_accounts_eq haccounts (by rw [hconfig])), ?_⟩
    unfold State.ShowsPrivilege
    rwa [haccounts]

theorem removeAccount_fresh {K : ℕ → Prop} {T : ℕ → Option Rank} {D : ℕ → Option Bool} :
  Spec (fun s => s.summary = ⟨K, T, D⟩) (removeAccount id)
    (fun _ => State.Fresh K (Function.update T id none)) fun s => s.summary = ⟨K, T, D⟩
  := by
  have hstill (s : State) (h : s.summary = ⟨K, T, D⟩) : s.summary = ⟨K, T, D⟩ := h
  unfold removeAccount
  apply Spec.keeps_bind _ hstill
  swap
  · exact updateAccount_summary (Φ := (· = _)) fun _ _ => rfl
  intro _
  apply Spec.keeps_bind _ hstill
  swap
  · exact modify_summary (Φ := (· = _)) (fun _ => rfl) fun _ => rfl
  intro _
  apply Spec.keeps_bind _ hstill
  swap
  · exact updateAccount_summary (Φ := (· = _)) fun _ _ => rfl
  intro _
  apply Spec.keeps_bind getAccount_keeps hstill
  intro _
  apply Spec.keeps_bind Keeps.refuse hstill
  intro _
  apply Spec.bind (Q := fun _ s' => s'.summary =
    ⟨K, Function.update T id none, Function.update D id none⟩)
  · apply Spec.modify
    intro s hs
    cases hs
    unfold State.summary State.ranks State.flags
    rw [State.view_eraseAccount, State.view_eraseAccount]
  · intro _
    exact updateDeletable_fresh

/-- Where the traps move on, the configuration protects the same accounts. -/
theorem leaveTrapAccount_summary (s : State) :
  Spec (· = s) (leaveTrapAccount id) (fun _ s' => s'.summary = s.summary)
    fun s' => s'.summary = s.summary
  := by
  have hstill (s' : State) (h : s' = s) : s'.summary = s.summary := congrArg _ h
  unfold leaveTrapAccount changeSnmpV3TrapAccount
  apply Spec.get_bind
  apply Spec.ite
  · exact fun _ => Spec.throw hstill
  intro _
  apply Spec.ite
  · intro hmoves
    have hpolicy : s.config.snmpV3TrapAccountChangePolicy = 1 := by
      rw [Bool.and_eq_true, decide_eq_true_eq, decide_eq_true_eq] at hmoves
      exact hmoves.2
    apply Spec.get_bind
    apply Spec.keeps_bind Keeps.refuse hstill
    intro _
    apply Spec.modify
    rintro _ rfl
    apply State.summary_of_accounts_eq
    · rfl
    · unfold Config.Protects
      simp [hpolicy]
  · exact fun _ => Spec.pure hstill

theorem recoverDefault_listed {cfg : Config} {a a' : Account} (h : a.recoverDefault env cfg = .ok a') :
  a'.listed = a.listed
  := by
  unfold Account.recoverDefault at h
  cases hcls : a.cls <;> simp only [hcls] at h
  case interChassisAccount =>
    cases h
    apply Prod.ext
    · apply rank_of_not_local
      · exact fun h => nomatch h
      · simp [hcls]
    · rfl
  all_goals cases h

theorem deleteSshPublicKey_listed {a a' : Account} (h : a.deleteSshPublicKey env = .ok a') :
  a'.listed = a.listed
  := by
  apply Prod.ext (rank_congr (Account.standing_deleteSshPublicKey h))
  unfold Account.deleteSshPublicKey at h
  split at h
  all_goals try split_ifs at h
  all_goals
    cases h
    rfl

theorem recoverInterChassis_summary (env : Env) :
  Keeps (fun s => Φ s.summary) (recoverInterChassisAccountToDefault env)
  := by
  unfold recoverInterChassisAccountToDefault
  apply Keeps.bind (callAccount_summary fun _ _ _ h => recoverDefault_listed h)
  intro _
  apply Keeps.bind getAccount_keeps
  intro _
  apply Keeps.onlyIf
  apply Keeps.bind Keeps.refuse
  intro _
  exact callAccount_summary fun _ _ _ h => deleteSshPublicKey_listed h

theorem deleteAccount_fresh (env : Env) (validationSkipped : Bool)
    (hid : id ≠ interChassisAccountId) (s : State) :
  Spec (· = s) (deleteAccount env id validationSkipped)
    (fun _ => State.Fresh s.config.Protects (Function.update s.ranks id none))
    fun s' => s'.summary = s.summary
  := by
  have hstill (s' : State) (h : s' = s) : s'.summary = s.summary := congrArg _ h
  unfold deleteAccount
  rw [if_neg hid]
  apply Spec.keeps_bind getAccount_keeps hstill
  intro account
  apply Spec.keeps_bind Keeps.refuse hstill
  intro _
  apply Spec.keeps_bind Keeps.refuse hstill
  intro _
  apply Spec.keeps_bind refuseEmergencyUser_keeps hstill
  intro _
  apply Spec.keeps_bind refuseLastOperateAdmin_keeps hstill
  intro _
  apply Spec.bind (leaveTrapAccount_summary s)
  intro _
  apply Spec.keeps_bind Keeps.refuse fun _ h => h
  intro _
  apply Spec.keeps_bind Keeps.refuse fun _ h => h
  intro _
  exact removeAccount_fresh

theorem listed_setWithinMinPasswordDaysStatus (status : Bool) (a : Account) :
  (a.setWithinMinPasswordDaysStatus status).listed = a.listed
  := by
  unfold Account.setWithinMinPasswordDaysStatus
  split <;> rfl

theorem newAccountToDbAndMdb_fresh (env : Env) (id : ℕ) (info : Account.Info)
    (isIpmiOrSnmp : Bool) (s : State) :
  Spec (· = s) (newAccountToDbAndMdb env id info isIpmiOrSnmp)
    (fun _ => State.Fresh s.config.Protects
      (Function.update s.ranks id (some (Account.newRank env info))))
    (· = s)
  := by
  unfold newAccountToDbAndMdb
  apply Spec.get_bind
  apply Spec.keeps_bind (Keeps.onlyIf (require_keeps _)) fun _ h => h
  intro _
  cases ha : Account.init env info with
  | error e => exact Spec.throw fun _ h => h
  | ok a =>
    have hrank : (a.entered env s.config).rank = Account.newRank env info := by
      unfold Account.init at ha
      split at ha
      · cases ha
      · split at ha
        · cases ha
        · cases ha
          exact rank_congr (Account.standing_updatePrivileges ..)
    apply Spec.bind (Q := fun _ s' => s'.summary = ⟨s.config.Protects,
      Function.update s.ranks id (some (Account.newRank env info)),
      Function.update s.flags id (some (a.entered env s.config).data.deletable)⟩)
    · apply Spec.modify
      rintro _ rfl
      unfold State.summary State.ranks State.flags
      rw [State.view_insertAccount, State.view_insertAccount, hrank]
    intro _
    apply Spec.bind (modify_summary (Φ := (· = _)) _ _)
    · intro _
      apply Spec.bind (updateAccount_summary (Φ := (· = _)) fun _ _ =>
        listed_updateInactiveUserStartTime ..)
      intro _
      apply Spec.bind updateDeletable_fresh
      intro _
      apply Spec.modify
      exact fun s' h => h.of_summary (State.summary_mapAccounts fun _ _ =>
        listed_setWithinMinPasswordDaysStatus ..)
    · intro s'
      unfold State.newAccountChannels
      split_ifs <;> rfl
    · intro s'
      unfold State.newAccountChannels
      split_ifs <;> rfl

theorem newAccount_fresh (env : Env) (info : Account.Info) (isIpmiOrSnmp : Bool) (s : State) :
  Spec (· = s) (newAccount env info isIpmiOrSnmp)
    (fun id => State.Fresh s.config.Protects
      (Function.update s.ranks id (some (Account.newRank env info))))
    (· = s)
  := by
  unfold newAccount
  cases env.checkUserName (if info.oem then .oem else .localUser) info.name with
  | none => exact Spec.throw fun _ h => h
  | some allowed =>
    apply Spec.keeps_bind Keeps.refuse fun _ h => h
    intro _
    apply Spec.keeps_bind Keeps.refuse fun _ h => h
    intro _
    apply Spec.get_bind
    cases getValidAccountId s info.id info.oem with
    | error e => exact Spec.throw fun _ h => h
    | ok i =>
      apply Spec.keeps_bind Keeps.refuse fun _ h => h
      intro _
      apply Spec.bind (newAccountToDbAndMdb_fresh env i info isIpmiOrSnmp s)
      intro _
      exact Spec.pure fun _ h => h

/-! ### The access by IPMI -/

theorem rank_setIpmiUserAccess (req : UserAccessReq) (privilege : IpmiPrivilege) (a : Account) :
  (a.setIpmiUserAccess req privilege).rank = (a.withPrivilege privilege).rank
  := rank_congr (standing_setIpmiUserAccess req privilege a)

theorem deletable_setIpmiUserAccess (req : UserAccessReq) (privilege : IpmiPrivilege) (a : Account) :
  (a.setIpmiUserAccess req privilege).data.deletable = a.data.deletable
  := by
  unfold Account.setIpmiUserAccess
  split_ifs <;> rfl

/-- An account that shows the privilege already. -/
theorem listed_setIpmiUserAccess {req : UserAccessReq} {privilege : IpmiPrivilege} {a : Account}
    (h : a.ipmi.privilege1 = .admin ↔ privilege = .admin) :
  (a.setIpmiUserAccess req privilege).listed = a.listed
  := by
  apply Prod.ext
  · rw [Account.listed, rank_setIpmiUserAccess]
    exact rank_congr_admin rfl h.symm rfl rfl rfl
  · exact deletable_setIpmiUserAccess req privilege a

variable {req : UserAccessReq} {ctx : IpmiCtx} {privilege : IpmiPrivilege} {limit : ℕ}

theorem setIpmiUserAccess_refused {e : Err} (h : ipmiSetUserAccessInputCheck env req ctx s = .error e) :
  exec (setIpmiUserAccess env req ctx) s = (.error e, s)
  := by
  rw [exec_setIpmiUserAccess, h]

/-- Where the role follows the privilege. -/
theorem setIpmiUserAccess_fresh
    (h : ipmiSetUserAccessInputCheck env req ctx s = .ok (privilege, limit))
    (hrole : setsRole env req ctx = true) :
  Spec (· = s) (setIpmiUserAccess env req ctx)
    (fun _ => State.Fresh s.config.Protects (s.ranksWith req.userId
      (Account.withRoleAndPrivilege (privilegeToRole privilege).value privilege)))
    fun s' => s'.summary = s.summary
  := by
  have hstill (s' : State) (h : s' = s) : s'.summary = s.summary := congrArg _ h
  rintro s' rfl
  rw [exec_setIpmiUserAccess, h]
  refine Spec.keeps_bind (P := (· = s')) Keeps.refuse hstill (fun _ => ?_) s' rfl
  rw [hrole]
  apply Spec.bind (setRoleId_fresh env _ (some privilege) s')
  intro _
  apply Spec.bind (Q := fun _ => _)
  · apply Spec.modify (S := fun s₁ => s₁.Fresh s'.config.Protects (s'.ranksWith req.userId
      (Account.withRoleAndPrivilege (privilegeToRole privilege).value privilege))
      ∧ s₁.ShowsPrivilege req.userId privilege)
    exact fun s₁ h => h
  intro _
  apply Spec.modify
  rintro s₁ ⟨hfresh, hshows⟩
  exact hfresh.of_summary (State.summary_modifyAccount_same fun a ha =>
    listed_setIpmiUserAccess (hshows a ha))

/-- Where the role stays. -/
theorem setIpmiUserAccess_changes
    (h : ipmiSetUserAccessInputCheck env req ctx s = .ok (privilege, limit))
    (hrole : setsRole env req ctx = false) :
  Spec (· = s) (setIpmiUserAccess env req ctx)
    (fun _ => Changes s req.userId (Account.withPrivilege privilege))
    fun s' => s'.summary = s.summary
  := by
  have hstill (s' : State) (h : s' = s) : s'.summary = s.summary := congrArg _ h
  rintro s' rfl
  rw [exec_setIpmiUserAccess, h]
  refine Spec.keeps_bind (P := (· = s')) Keeps.refuse hstill (fun _ => ?_) s' rfl
  rw [hrole]
  apply Spec.keeps_bind Keeps.pure hstill
  intro _
  apply Spec.bind (Q := fun _ s₁ => s₁.accounts = s'.accounts ∧ s₁.config = s'.config)
  · apply Spec.modify
    rintro s₁ rfl
    exact ⟨rfl, rfl⟩
  intro _
  apply Spec.modify
  rintro s₁ ⟨haccounts, hconfig⟩
  have hsame : (s₁.modifyAccount req.userId (Account.setIpmiUserAccess req privilege)).summary
      = (s'.modifyAccount req.userId (Account.setIpmiUserAccess req privilege)).summary := by
    apply State.summary_of_accounts_eq
    · simp only [State.modifyAccount, haccounts]
    · change s₁.config.Protects = s'.config.Protects
      rw [hconfig]
  unfold Changes
  rw [hsame, State.summary_modifyAccount fun a _ => deletable_setIpmiUserAccess req privilege a,
    State.ranksWith_congr fun a _ => rank_setIpmiUserAccess req privilege a]

/-! ### The sweep over inactive accounts -/

theorem after_forM_visitInactive (env : Env) (limit : ℕ) (order : List ℕ) (s : State) :
  after (order.forM (visitInactive env limit)) s = s.disableInactive env limit order
  := by
  induction order generalizing s with
  | nil => rfl
  | cons id order ih =>
    have hvisit : exec (visitInactive env limit id) s =
        exec (callAccount id fun cfg => Account.updateInactiveStatus env cfg
          (s.enabledAdminNumber = 1) limit id) s := rfl
    unfold after State.disableInactive
    rw [exec_forM_cons, exec_bind, hvisit]
    cases ha : s.accounts.lookup id with
    | none =>
      unfold callAccount
      rw [exec_bind_ok (exec_get s), ha]
      rfl
    | some a =>
      rw [exec_callAccount ha, Option.map_some]
      cases a.updateInactiveStatus env s.config (s.enabledAdminNumber = 1) limit id with
      | error e => rfl
      | ok a' => exact ih _

theorem updateInactiveStatus_kept {cfg : Config} {only : Bool} {limit : ℕ} {a a' : Account}
    (h : a.updateInactiveStatus env cfg only limit id = .ok a') :
  a'.cls = a.cls ∧ a'.data.deletable = a.data.deletable
  := by
  have hstays : ∀ {b : Account}, Except.ok (ε := Err) a = .ok b →
      b.cls = a.cls ∧ b.data.deletable = a.data.deletable := by
    rintro b ⟨⟩
    exact ⟨rfl, rfl⟩
  unfold Account.updateInactiveStatus at h
  split at h
  · split_ifs at h
    · exact hstays h
    · exact hstays h
    · exact setEnabled_kept h
    · exact hstays h
  · exact hstays h

/-- The sweep leaves the configuration, the flags, and which accounts are local. -/
theorem disableInactive_kept (env : Env) (limit : ℕ) (order : List ℕ) (s : State) :
  (s.disableInactive env limit order).config = s.config
    ∧ (s.disableInactive env limit order).flags = s.flags
    ∧ ∀ j, ((s.disableInactive env limit order).ranks j).map Rank.isLocal
      = (s.ranks j).map Rank.isLocal
  := by
  induction order generalizing s with
  | nil => exact ⟨rfl, rfl, fun _ => rfl⟩
  | cons id order ih =>
    unfold State.disableInactive
    split
    · rename_i a' hvisit
      obtain ⟨a, ha, hvisit⟩ := Option.map_eq_some_iff.mp hvisit
      have hkept := updateInactiveStatus_kept hvisit
      obtain ⟨hconfig, hflags, hlocal⟩ := ih (s.modifyAccount id fun _ => a')
      have hflags' : (s.modifyAccount id fun _ => a').flags = s.flags := by
        apply State.view_modifyAccount_same
        intro b hb
        rw [ha] at hb
        rw [← Option.some_inj.mp hb]
        exact hkept.2
      refine ⟨hconfig, hflags.trans hflags', fun j => (hlocal j).trans ?_⟩
      have hranks : (s.modifyAccount id fun _ => a').ranks = s.ranksWith id fun _ => a' :=
        State.view_modifyAccount s id _
      rw [hranks]
      apply State.map_isLocal_ranksWith
      intro b hb
      rw [ha] at hb
      rw [← Option.some_inj.mp hb]
      exact hkept.1
    · exact ⟨rfl, rfl, fun _ => rfl⟩

/-! ### The configuration -/

/-- A change of the configuration after which the flags are computed. -/
theorem setConfig_fresh (f : Config → Config) (s : State) :
  Spec (· = s) (do
      modify fun s => { s with config := f s.config }
      updateDeletable)
    (fun _ => State.Fresh (f s.config).Protects s.ranks) E
  := by
  apply Spec.bind (Q := fun _ s' => s'.summary = ⟨(f s.config).Protects, s.ranks, s.flags⟩)
  · apply Spec.modify
    rintro _ rfl
    rfl
  · exact fun _ => updateDeletable_fresh

theorem setSnmpV3TrapAccount_fresh (s : State) :
  Spec (· = s) (setSnmpV3TrapAccount id)
    (fun _ => State.Fresh { s.config with snmpV3TrapAccountId := id }.Protects s.ranks) (· = s)
  := by
  unfold setSnmpV3TrapAccount
  apply Spec.keeps_bind getAccount_keeps fun _ h => h
  intro account
  apply Spec.keeps_bind Keeps.refuse fun _ h => h
  intro _
  exact setConfig_fresh (fun cfg => { cfg with snmpV3TrapAccountId := id }) s

theorem setSnmpV3TrapAccountChangePolicy_fresh (value : ℕ) (s : State) :
  Spec (· = s) (setSnmpV3TrapAccountChangePolicy value)
    (fun _ => State.Fresh { s.config with snmpV3TrapAccountChangePolicy := value }.Protects s.ranks)
    (· = s)
  := by
  unfold setSnmpV3TrapAccountChangePolicy
  apply Spec.keeps_bind Keeps.refuse fun _ h => h
  intro _
  exact setConfig_fresh (fun cfg => { cfg with snmpV3TrapAccountChangePolicy := value }) s

/-! ### The emergency account -/

theorem onlyIf_true (m : M Unit) :
  onlyIf true m = m
  := rfl

/-- What is left of a state by the checks of the new emergency account. -/
structure Accepted (s s' : State) : Prop where
  summary : s'.summary = s.summary
  config : s'.config = s.config
  present : ∀ j, (s'.accounts.lookup j).isSome = (s.accounts.lookup j).isSome

theorem deletable_updatePrivileges (env : Env) (cfg : Config)
    (given : Option (List PrivilegeType)) (a : Account) :
  (a.updatePrivileges env cfg given).data.deletable = a.data.deletable
  := by
  unfold Account.updatePrivileges
  simp only
  split <;> rfl

theorem listed_updatePasswordExpireStatus (env : Env) (cfg : Config) (status : Bool)
    (a : Account) :
  (a.updatePasswordExpireStatus env cfg status).listed = a.listed
  := by
  apply Prod.ext (rank_congr (standing_updatePasswordExpireStatus ..))
  change (a.updatePasswordExpireStatus env cfg status).data.deletable = a.data.deletable
  unfold Account.updatePasswordExpireStatus Account.setPasswordChangeRequired
  split_ifs
  · rfl
  · rw [deletable_updatePrivileges, deletable_updatePrivileges]
  · rw [deletable_updatePrivileges, deletable_updatePrivileges]

theorem listed_checkPasswordValidDays (env : Env) (cfg : Config) (id : ℕ) (a : Account) :
  (a.checkPasswordValidDays env cfg id).listed = a.listed
  := by
  unfold Account.checkPasswordValidDays
  split_ifs
  · rfl
  · rfl
  · exact (listed_updatePasswordExpireStatus env cfg _ a)

theorem isSome_lookup_modifyAccount (f : Account → Account) (j : ℕ) :
  ((s.modifyAccount id f).accounts.lookup j).isSome = (s.accounts.lookup j).isSome
  := by
  unfold State.modifyAccount
  by_cases hj : j = id
  · subst hj
    rw [Table.lookup_modify_self, Option.isSome_map]
  · rw [Table.lookup_modify_ne hj]

theorem exec_acceptEmergencyAccount (env : Env) (h : s.AcceptsEmergency id) :
  ∃ s', exec (onlyIf (id != 0) (acceptEmergencyAccount env id)) s = (.ok (), s') ∧ Accepted s s'
  := by
  obtain rfl | ⟨hlo, hhi, a, ha, hrole, henabled⟩ := h
  · exact ⟨s, rfl, rfl, rfl, fun _ => rfl⟩
  have hid : id ≠ 0 := by
    unfold minUserNum at hlo
    omega
  refine ⟨s.modifyAccount id (Account.updatePasswordExpireStatus env s.config false), ?_, ?_⟩
  · have hrange : (decide (id < minUserNum) || decide (maxUserNum < id)) = false := by
      simp [hlo, hhi]
    have hadmin : (a.data.roleId != RoleType.administrator.value || !a.data.enabled) = false := by
      simp [hrole, henabled]
    rw [bne_iff_ne.mpr hid, onlyIf_true]
    unfold acceptEmergencyAccount
    rw [hrange, exec_bind_ok (exec_refuse_false _ s), exec_bind_ok (exec_getAccount ha), hadmin,
      exec_bind_ok (exec_refuse_false _ s)]
    rfl
  · constructor
    · exact State.summary_modifyAccount_same fun _ _ => listed_updatePasswordExpireStatus ..
    · rfl
    · exact isSome_lookup_modifyAccount _

theorem exec_acceptEmergencyAccount_refused (env : Env) (h : ¬ s.AcceptsEmergency id) :
  ∃ e, exec (onlyIf (id != 0) (acceptEmergencyAccount env id)) s = (.error e, s)
  := by
  unfold State.AcceptsEmergency at h
  push Not at h
  obtain ⟨hid, h⟩ := h
  rw [bne_iff_ne.mpr hid, onlyIf_true]
  unfold acceptEmergencyAccount
  cases hrange : decide (id < minUserNum) || decide (maxUserNum < id) with
  | true =>
    rw [exec_bind_error (exec_refuse_true _ s)]
    exact ⟨_, rfl⟩
  | false =>
    rw [exec_bind_ok (exec_refuse_false _ s)]
    rw [Bool.or_eq_false_iff, decide_eq_false_iff_not, decide_eq_false_iff_not, not_lt, not_lt]
      at hrange
    cases ha : s.accounts.lookup id with
    | none =>
      rw [exec_bind_error (exec_getAccount_none ha)]
      exact ⟨_, rfl⟩
    | some a =>
      have hadmin : (a.data.roleId != RoleType.administrator.value || !a.data.enabled) = true := by
        by_cases hrole : a.data.roleId = RoleType.administrator.value
        · simpa [hrole] using h hrange.1 hrange.2 a ha hrole
        · simp [hrole]
      rw [exec_bind_ok (exec_getAccount ha), hadmin, exec_bind_error (exec_refuse_true _ s)]
      exact ⟨_, rfl⟩

theorem setEmergencyAccount_refused (env : Env) (h : ¬ s.AcceptsEmergency id) :
  after (setEmergencyAccount env id) s = s
  := by
  obtain ⟨e, he⟩ := exec_acceptEmergencyAccount_refused env h
  unfold after setEmergencyAccount
  rw [exec_bind_error he]

/-- What `set_emergency_account` does to an accepted account. -/
theorem exec_setEmergencyAccount (env : Env) (h : s.AcceptsEmergency id) :
  ∃ s', s'.summary = ⟨{ s.config with emergencyLoginAccountId := id }.Protects, s.ranks, s.flags⟩
    ∧ (∀ j, (s'.accounts.lookup j).isSome = (s.accounts.lookup j).isSome)
    ∧ exec (setEmergencyAccount env id) s = exec (do
      onlyIf (s.config.emergencyLoginAccountId != 0)
        (callAccount s.config.emergencyLoginAccountId fun _ a =>
          .ok (a.setPasswordValidStartTime env.now))
      updateDeletable
      checkPasswordValidDays env) s'
  := by
  obtain ⟨s₁, hexec, hsummary, hconfig, hpresent⟩ := exec_acceptEmergencyAccount env h
  refine ⟨{ s₁ with config := { s₁.config with emergencyLoginAccountId := id } }, ?_, hpresent, ?_⟩
  · have hranks : s₁.ranks = s.ranks := congrArg Summary.ranks hsummary
    have hflags : s₁.flags = s.flags := congrArg Summary.flags hsummary
    rw [← hranks, ← hflags, ← hconfig]
    rfl
  · unfold setEmergencyAccount
    rw [exec_bind_ok hexec, exec_bind_ok (exec_get s₁), exec_bind_ok (exec_modify _ s₁), hconfig]

/-- The flags are computed where no account was the emergency account, or one that is there. -/
theorem setEmergencyAccount_fresh (env : Env) (h : s.AcceptsEmergency id)
    (hold : s.config.emergencyLoginAccountId = 0
      ∨ (s.accounts.lookup s.config.emergencyLoginAccountId).isSome) :
  (after (setEmergencyAccount env id) s).Fresh
    { s.config with emergencyLoginAccountId := id }.Protects s.ranks
  := by
  obtain ⟨s', hsummary, hpresent, hexec⟩ := exec_setEmergencyAccount env h
  unfold after
  rw [hexec]
  have hstart : ∃ s₁, exec (onlyIf (s.config.emergencyLoginAccountId != 0)
      (callAccount s.config.emergencyLoginAccountId fun _ a =>
        .ok (a.setPasswordValidStartTime env.now))) s' = (.ok (), s₁) ∧ s₁.summary = s'.summary := by
    by_cases hzero : s.config.emergencyLoginAccountId = 0
    · rw [hzero]
      exact ⟨s', rfl, rfl⟩
    · have hsome := hold.resolve_left hzero
      rw [← hpresent, Option.isSome_iff_exists] at hsome
      obtain ⟨a, ha⟩ := hsome
      rw [bne_iff_ne.mpr hzero, onlyIf_true]
      refine ⟨_, exec_callAccount ha, State.summary_modifyAccount_same fun b hb => ?_⟩
      rw [ha] at hb
      rw [Option.some_inj.mp hb]
      exact Prod.ext (rank_congr rfl) rfl
  obtain ⟨s₁, hstart, hsame⟩ := hstart
  rw [exec_bind_ok hstart]
  have hfresh := updateDeletable_fresh (E := fun _ => False) s₁ (hsame.trans hsummary)
  exact State.Fresh.of_summary hfresh
    (State.summary_mapAccounts fun _ _ => listed_checkPasswordValidDays ..)

/-- Where the old emergency account is not there, it raises before. -/
theorem setEmergencyAccount_raises (env : Env) (h : s.AcceptsEmergency id)
    (hold : ¬ (s.config.emergencyLoginAccountId = 0
      ∨ (s.accounts.lookup s.config.emergencyLoginAccountId).isSome)) :
  (after (setEmergencyAccount env id) s).summary =
    ⟨{ s.config with emergencyLoginAccountId := id }.Protects, s.ranks, s.flags⟩
  := by
  obtain ⟨s', hsummary, hpresent, hexec⟩ := exec_setEmergencyAccount env h
  obtain ⟨hzero, hnone⟩ := not_or.mp hold
  rw [← hpresent, Option.not_isSome_iff_eq_none] at hnone
  unfold after
  rw [hexec, bne_iff_ne.mpr hzero]
  have hraises : exec (onlyIf true (callAccount s.config.emergencyLoginAccountId fun _ a =>
      .ok (a.setPasswordValidStartTime env.now))) s' = (.error .indexNil, s') := by
    rw [onlyIf_true]
    unfold callAccount
    rw [exec_bind_ok (exec_get s'), hnone]
    rfl
  rw [exec_bind_error hraises]
  exact hsummary

end Call

/-! ## Runs -/

section Step

variable {s : State} {m : M Unit} {K : ℕ → Prop} {T : ℕ → Option Rank} {id : ℕ}
  {g : Account → Account}

/-- A call that raises without a trace, or computes the flags. -/
theorem flagsTrue_after_fresh (hs : s.FlagsTrue)
    (hspec : Spec (· = s) m (fun _ => State.Fresh K T) fun s' => s'.summary = s.summary) :
  (after m s).FlagsTrue ↔ ((exec m s).1 = .ok () → Rank.Agrees K T)
  := flagsTrue_after_iff hs (hspec.weaken (fun _ h => h) (fun _ _ h => h.flagsTrue_iff) fun _ h => h)

/-- A call that raises without a trace, or changes one account and leaves the flags. -/
theorem flagsTrue_after_changes (hs : s.FlagsTrue) (hcls : ∀ a, (g a).cls = a.cls)
    (hspec : Spec (· = s) m (fun _ => Changes s id g) fun s' => s'.summary = s.summary) :
  (after m s).FlagsTrue ↔
    ((exec m s).1 = .ok () → Rank.SameSole s.config.Protects s.ranks (s.ranksWith id g))
  := by
  apply flagsTrue_after_iff hs
  apply hspec.weaken (fun _ h => h) _ fun _ h => h
  exact fun _ s' h => hs.of_same h (State.map_isLocal_ranksWith fun a _ => hcls a)

end Step

theorem updateInactiveStatus_flagsTrue_iff {env : Env} {s : State} (order : List ℕ)
    (hs : s.FlagsTrue) :
  (after (updateInactiveStatus env order) s).FlagsTrue ↔
    (s.config.inactiveDaysThreshold ≠ 0 → Rank.SameSole s.config.Protects s.ranks
      (s.disableInactive env (s.config.inactiveDaysThreshold * daySecondCount) order).ranks)
  := by
  by_cases hzero : s.config.inactiveDaysThreshold = 0
  · have hstill : after (updateInactiveStatus env order) s = s := by
      unfold after updateInactiveStatus
      rw [exec_bind_ok (exec_get s), if_pos hzero]
      rfl
    rw [hstill]
    exact iff_of_true hs fun h => absurd hzero h
  · have hsweep : after (updateInactiveStatus env order) s
        = s.disableInactive env (s.config.inactiveDaysThreshold * daySecondCount) order := by
      rw [← after_forM_visitInactive]
      unfold after updateInactiveStatus
      rw [exec_bind_ok (exec_get s), if_neg hzero]
    obtain ⟨hconfig, hflags, hlocal⟩ := disableInactive_kept env
      (s.config.inactiveDaysThreshold * daySecondCount) order s
    rw [hsweep, hs.of_same _ hlocal]
    · exact ⟨fun h _ => h, fun h => h hzero⟩
    · unfold State.summary
      rw [hconfig, hflags]

/-- An accepted request has the privilege that its value stands for. -/
theorem privilege_of_inputCheck {env : Env} {req : UserAccessReq} {ctx : IpmiCtx} {s : State}
    {privilege : IpmiPrivilege} {limit : ℕ}
    (h : ipmiSetUserAccessInputCheck env req ctx s = .ok (privilege, limit)) :
  IpmiPrivilege.ofValue req.userPrivilege = some privilege
  := by
  unfold ipmiSetUserAccessInputCheck at h
  split at h
  · cases h
  · cases h
  · rename_i p _ hp
    rw [hp]
    split_ifs at h
    split at h
    · cases h
    · split_ifs at h
      cases hlimit : checkSessionLimit req.sessionLimit with
      | error e =>
        rw [hlimit] at h
        cases h
      | ok l =>
        rw [hlimit] at h
        cases h
        rfl

theorem setIpmiUserAccess_flagsTrue_iff {env : Env} {s : State} (req : UserAccessReq)
    (ctx : IpmiCtx) (hs : s.FlagsTrue) :
  (after (setIpmiUserAccess env req ctx) s).FlagsTrue ↔
    FlagCall.Suits s ⟨env, .setIpmiUserAccess req ctx⟩
  := by
  change _ ↔ ((exec (setIpmiUserAccess env req ctx) s).1 = .ok () → ∀ privilege,
    IpmiPrivilege.ofValue req.userPrivilege = some privilege → if setsRole env req ctx then _ else _)
  cases hcheck : ipmiSetUserAccessInputCheck env req ctx s with
  | error e =>
    have hexec := setIpmiUserAccess_refused hcheck
    unfold after
    rw [hexec]
    exact iff_of_true hs fun h => nomatch h
  | ok r =>
    obtain ⟨privilege, limit⟩ := r
    have hprivilege := privilege_of_inputCheck hcheck
    rw [hprivilege]
    cases hrole : setsRole env req ctx with
    | true =>
      rw [flagsTrue_after_fresh hs (setIpmiUserAccess_fresh hcheck hrole)]
      apply imp_congr_right
      intro _
      simp
    | false =>
      have hiff := flagsTrue_after_changes (g := Account.withPrivilege privilege) hs
        (fun _ => rfl) (setIpmiUserAccess_changes hcheck hrole)
      rw [hiff]
      apply imp_congr_right
      intro _
      simp

theorem setEmergencyAccount_flagsTrue_iff (env : Env) {s : State} (id : ℕ) (hs : s.FlagsTrue) :
  (after (setEmergencyAccount env id) s).FlagsTrue ↔
    FlagCall.Suits s ⟨env, .setEmergencyAccount id⟩
  := by
  change _ ↔ (s.AcceptsEmergency id → if s.config.emergencyLoginAccountId = 0
    ∨ (s.accounts.lookup s.config.emergencyLoginAccountId).isSome then _ else _)
  by_cases haccept : s.AcceptsEmergency id
  · rw [forall_prop_of_true haccept]
    by_cases hold : s.config.emergencyLoginAccountId = 0
        ∨ (s.accounts.lookup s.config.emergencyLoginAccountId).isSome
    · rw [if_pos hold]
      exact (setEmergencyAccount_fresh env haccept hold).flagsTrue_iff
    · rw [if_neg hold]
      have hsummary := setEmergencyAccount_raises env haccept hold
      rw [State.flagsTrue_iff] at hs ⊢
      have hprotects := congrArg Summary.protects hsummary
      have hranks := congrArg Summary.ranks hsummary
      have hflags := congrArg Summary.flags hsummary
      simp only [State.summary] at hprotects hranks hflags
      rw [hprotects, hranks, hflags]
      exact hs.of_protection s.flags_isSome
  · rw [setEmergencyAccount_refused env haccept]
    exact iff_of_true hs fun h => absurd h haccept

theorem newAccount_flagsTrue_iff (env : Env) {s : State} (info : Account.Info)
    (isIpmiOrSnmp : Bool) (hs : s.FlagsTrue) :
  (flagStep s ⟨env, .newAccount info isIpmiOrSnmp⟩).FlagsTrue ↔
    FlagCall.Suits s ⟨env, .newAccount info isIpmiOrSnmp⟩
  := by
  have hspec := newAccount_fresh env info isIpmiOrSnmp s s rfl
  change (after (newAccount env info isIpmiOrSnmp >>= fun _ => pure ()) s).FlagsTrue ↔ ∀ id,
    (exec (newAccount env info isIpmiOrSnmp) s).1 = .ok id → _
  unfold after
  rw [exec_bind]
  rcases hx : exec (newAccount env info isIpmiOrSnmp) s with ⟨e | id, s'⟩
  · rw [hx] at hspec
    simp only
    rw [hspec]
    exact iff_of_true hs fun _ h => nomatch h
  · rw [hx] at hspec
    simp only at hspec ⊢
    rw [exec_pure]
    rw [hspec.flagsTrue_iff]
    constructor
    · rintro h _ ⟨⟩
      exact h
    · exact fun h => h id rfl

theorem deleteAccount_flagsTrue_iff (env : Env) {s : State} (id : ℕ) (validationSkipped : Bool)
    (hs : s.FlagsTrue) :
  (after (deleteAccount env id validationSkipped) s).FlagsTrue ↔
    FlagCall.Suits s ⟨env, .deleteAccount id validationSkipped⟩
  := by
  change _ ↔ ((exec (deleteAccount env id validationSkipped) s).1 = .ok () →
    id ≠ interChassisAccountId → _)
  by_cases hid : id = interChassisAccountId
  · have hsame : (after (deleteAccount env id validationSkipped) s).summary = s.summary := by
      unfold deleteAccount
      rw [if_pos hid]
      exact (recoverInterChassis_summary (Φ := (· = s.summary)) env).after rfl
    exact iff_of_true ((State.flagsTrue_congr hsame).mpr hs) fun _ h => absurd hid h
  · rw [flagsTrue_after_fresh hs (deleteAccount_fresh env validationSkipped hid s)]
    exact imp_congr_right fun _ => ⟨fun h _ => h, fun h => h hid⟩

theorem setSnmpV3TrapAccountLimitPolicy_flagsTrue_iff {s : State} (value : ℕ) (hs : s.FlagsTrue) :
  (after (setSnmpV3TrapAccountLimitPolicy value) s).FlagsTrue ↔
    ∀ policy, SnmpV3TrapAccountLimitPolicy.ofValue value = some policy →
      Rank.Agrees { s.config with snmpV3TrapAccountLimitPolicy := policy }.Protects s.ranks
  := by
  unfold setSnmpV3TrapAccountLimitPolicy
  cases hvalue : SnmpV3TrapAccountLimitPolicy.ofValue value with
  | none => exact iff_of_true hs fun _ h => nomatch h
  | some policy =>
    have hfresh := setConfig_fresh (E := fun _ => False)
      (fun cfg => { cfg with snmpV3TrapAccountLimitPolicy := policy }) s
    have h := (hfresh.weaken (fun _ h => h) (fun _ _ h => h) fun _ h => h.elim).after rfl
    refine Iff.trans (State.Fresh.flagsTrue_iff h) ?_
    constructor
    · rintro h _ ⟨⟩
      exact h
    · exact fun h => h policy rfl

/-- One call leaves the flags true exactly if it suits. -/
theorem flagStep_flagsTrue_iff {s : State} (hs : s.FlagsTrue) (c : FlagCall) :
  (flagStep s c).FlagsTrue ↔ c.Suits s
  := by
  obtain ⟨env, op⟩ := c
  cases op with
  | newAccount info isIpmiOrSnmp => exact newAccount_flagsTrue_iff env info isIpmiOrSnmp hs
  | deleteAccount id validationSkipped => exact deleteAccount_flagsTrue_iff env id _ hs
  | setEnabled id status =>
    exact flagsTrue_after_changes hs (fun _ => rfl) (setEnabled_changes env status s)
  | setRoleId id roleId ipmiPrivilege =>
    apply flagsTrue_after_fresh hs
    exact (setRoleId_fresh env roleId ipmiPrivilege s).weaken (fun _ h => h) (fun _ _ h => h.1)
      fun _ h => h
  | setLoginInterface id interfaces =>
    exact flagsTrue_after_changes hs (fun _ => rfl) (setLoginInterface_changes env interfaces s)
  | setIpmiUserAccess req ctx => exact setIpmiUserAccess_flagsTrue_iff req ctx hs
  | updateInactiveStatus order => exact updateInactiveStatus_flagsTrue_iff order hs
  | setEmergencyAccount id => exact setEmergencyAccount_flagsTrue_iff env id hs
  | setSnmpV3TrapAccount id =>
    apply flagsTrue_after_fresh hs
    exact (setSnmpV3TrapAccount_fresh s).weaken (fun _ h => h) (fun _ _ h => h)
      fun _ h => congrArg _ h
  | setSnmpV3TrapAccountLimitPolicy value =>
    exact setSnmpV3TrapAccountLimitPolicy_flagsTrue_iff value hs
  | setSnmpV3TrapAccountChangePolicy value =>
    apply flagsTrue_after_fresh hs
    exact (setSnmpV3TrapAccountChangePolicy_fresh value s).weaken (fun _ h => h) (fun _ _ h => h)
      fun _ h => congrArg _ h

/-- The flags tell the truth in all states of a run exactly when they do at first and every call
suits. -/
theorem run_flagsTrue_iff (s : State) (calls : List FlagCall) :
  (∀ s' ∈ Run.states flagStep s calls, s'.FlagsTrue) ↔
    s.FlagsTrue ∧ Run.Along flagStep (fun s c => c.Suits s) s calls
  := by
  have hstep (s : State) (c : FlagCall) (hs : s.FlagsTrue) :
      (flagStep s c).FlagsTrue ↔ c.Suits s := flagStep_flagsTrue_iff hs c
  constructor
  · intro h
    have hs : s.FlagsTrue := h s (by cases calls <;> exact List.mem_cons_self)
    exact ⟨hs, (Run.invariant_iff hstep hs).mp h⟩
  · rintro ⟨hs, hsuits⟩
    exact (Run.invariant_iff hstep hs).mpr hsuits

instance (cfg : Config) : DecidablePred cfg.Protects :=
  fun _ => inferInstanceAs (Decidable (_ ∨ _))

theorem protects_iff_of_lookup {s : State} {id : ℕ} {a : Account}
    (ha : s.accounts.lookup id = some a) :
  s.Protects id ↔ s.config.Protects id ∨ a.isOperateAdmin = true ∧ s.operateAdminNumber ≤ 1
  := by
  apply or_congr Iff.rfl
  constructor
  · rintro ⟨⟨b, hb, hop⟩, hother⟩
    rw [ha] at hb
    obtain rfl := Option.some_inj.mp hb
    exact ⟨hop, (State.operateAdminNumber_le_one_iff ha hop).mpr hother⟩
  · rintro ⟨hop, hone⟩
    exact ⟨⟨a, ha, hop⟩, (State.operateAdminNumber_le_one_iff ha hop).mp hone⟩

instance (s : State) : Decidable s.FlagsTrue :=
  decidable_of_iff (∀ e ∈ s.accounts.entries, e.2.cls = .localAccount →
    (e.2.data.deletable = false ↔
      s.config.Protects e.1 ∨ e.2.isOperateAdmin = true ∧ s.operateAdminNumber ≤ 1)) <| by
    constructor
    · intro h id a ha hcls
      rw [protects_iff_of_lookup ha]
      exact h ⟨id, a⟩ (Table.mem_entries_iff.mpr ha) hcls
    · rintro h ⟨id, a⟩ he hcls
      rw [← protects_iff_of_lookup (Table.mem_entries_iff.mp he)]
      exact h id a (Table.mem_entries_iff.mp he) hcls

/-- The only administrator. -/
def oneAdmin : State :=
  plainState [(2, plainAccount "Administrator" RoleType.administrator.value
    LoginInterface.web.value)]

/-- Another administrator is created and then disabled. -/
def secondDisabled : List FlagCall :=
  [⟨plainEnv, .newAccount ⟨3, "second", "Pass-word1", RoleType.administrator.value,
    LoginInterface.web.value, none, false, false⟩ false⟩,
   ⟨plainEnv, .setEnabled 3 false⟩]

/-- The first administrator is the last one that can operate again, and is shown as deletable, but
cannot be deleted. -/
theorem secondDisabled_flags :
  (¬ ∀ (s : State) (calls : List FlagCall), s.FlagsTrue →
      ∀ s' ∈ Run.states flagStep s calls, s'.FlagsTrue)
    ∧ ∃ e, exec (deleteAccount plainEnv 2 false) (secondDisabled.foldl flagStep oneAdmin)
      = (.error e, secondDisabled.foldl flagStep oneAdmin)
  := by
  constructor
  · intro h
    have hlast := h oneAdmin secondDisabled (by decide +kernel) _
      (List.getLast_mem (by simp [secondDisabled, Run.states]))
    revert hlast
    decide +kernel
  · have hsome : ((secondDisabled.foldl flagStep oneAdmin).accounts.lookup 2).any
        Account.isOperateAdmin = true := by
      decide +kernel
    obtain ⟨a, ha, hoperates⟩ := (Option.any_eq_true _ _).mp hsome
    apply exec_deleteAccount_of_protects false (by decide) ha
    rw [protects_iff_of_lookup ha]
    exact .inr ⟨hoperates, by decide +kernel⟩

end BmcAccount
