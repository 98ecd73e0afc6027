import BmcAccount.Account.Admin

/-!
# The access of a user on a channel

`set_ipmi_user_access` gives an account its privilege limit and its settings on an IPMI
channel, and `get_ipmi_user_access` reads them. Channels may have been given other numbers:
a request names the outer number and the code translates it to the inner one. Reading looks
up the inner number, but setting checks the inner number and stores under the outer one.

So what was set is read back when the number is its own translation, and otherwise only if
the configuration of the inner channel happens to say the same before
(`userAccessRoundTrip_iff`).
-/

namespace BmcAccount

open Raise

/-! ## Reading the access -/

/-- The answer to a request for the access of a user; its reserved fields are `0`. -/
structure UserAccessRsp where
  maxUserNumber : ℕ
  enabledUser : ℕ
  enableStatus : ℕ
  userNumber : ℕ
  privilegeLimit : ℕ
  ipmiMessaging : ℕ
  linkAuthentication : ℕ
  chaAccessMode : ℕ

/-- The channel a number stands for; `14` stands for the one a request arrives on. -/
def presentChannel (channelNumber : ℕ) (ctx : IpmiCtx) : ℕ :=
  if channelNumber = 14 then ctx.chanNum.getD channelNumber else channelNumber

/-- `get_enabled_user_number_on_channel`. -/
def State.enabledUserNumberOnChannel (s : State) (channelNumber : ℕ) : List ℕ :=
  (s.channels.entries.filter fun e =>
    (e.2.lookup channelNumber).any (·.ipmiMessagingEnabled)).map (·.1)

/-- `get_ipmi_empty_user_access`. -/
def emptyUserAccess : UserAccessRsp where
  maxUserNumber := maxUserNum
  enabledUser := 1
  enableStatus := 0
  userNumber := 1
  privilegeLimit := IpmiPrivilege.noAccess.value
  ipmiMessaging := 1
  linkAuthentication := 1
  chaAccessMode := 0

/-- The settings of a channel in an answer; a channel without a configuration has the
default ones. -/
def channelAnswer : Option ChannelConfig → UserAccessRsp
  | none => emptyUserAccess
  | some row => { emptyUserAccess with
      chaAccessMode := row.callbackRestriction
      linkAuthentication := if row.linkAuthenticationEnabled then 1 else 0
      ipmiMessaging := if row.ipmiMessagingEnabled then 1 else 0
      privilegeLimit := row.privilegeLimit }

/-- `get_ipmi_user_access` of account objects, given the configuration of the channel. -/
def Account.getIpmiUserAccess (row : Option ChannelConfig) (a : Account) : UserAccessRsp :=
  { channelAnswer row with
    enableStatus := if a.ipmi.isEnableByPasswd = .passwordEnable then 2 else 1 }

/-- `AccountCollection:get_ipmi_user_access`. -/
def State.getIpmiUserAccess (s : State) (id channelNumber : ℕ) : UserAccessRsp :=
  let rsp := match s.accounts.lookup id with
    | none => emptyUserAccess
    | some a => a.getIpmiUserAccess (s.channel id channelNumber)
  { rsp with
    enabledUser := ((s.enabledUserNumberOnChannel channelNumber).filter fun j =>
      (s.accounts.lookup j).any fun a => a.data.enabled && !a.data.locked).length }

/-- `AccountService:get_ipmi_user_access`. -/
def getIpmiUserAccess (env : Env) (userId channelNumber : ℕ) (ctx : IpmiCtx) (s : State) :
    Except Err UserAccessRsp :=
  if userId < 1 || maxUserNum < userId then .error .ipmiInvalidFieldRequest
  else if env.multiChannelStatus = 0 && presentChannel channelNumber ctx != 1 then
    .error .ipmiInvalidFieldRequest
  else
    match channelNumberTranslation env (presentChannel channelNumber ctx) with
    | none => .error .ipmiInvalidFieldRequest
    | some ch =>
      if !defaultChannels.contains ch then .error .ipmiInvalidFieldRequest
      else if !hostUserMgntEnabled s.config ctx then .error .hostUserManagementDisabled
      else .ok (s.getIpmiUserAccess userId ch)

/-! ## Requests -/

/-- The fields of a request to set the access of a user, with their widths. -/
structure SetUserAccess where
  channelNumber : Fin 16
  messagingEnable : Fin 2
  authenticationEnable : Fin 2
  userRestricted : Fin 2
  changeEnable : Fin 2
  userId : Fin 64
  userPrivilege : Fin 16
  sessionLimit : List UInt8

def SetUserAccess.req (m : SetUserAccess) : UserAccessReq where
  userId := m.userId
  channelNumber := m.channelNumber
  userPrivilege := m.userPrivilege
  sessionLimit := m.sessionLimit
  userRestricted := m.userRestricted
  authenticationEnable := m.authenticationEnable
  messagingEnable := m.messagingEnable
  changeEnable := m.changeEnable

/-- An answer says what a request sets: the privilege limit, and the other settings if they
were to be changed. -/
structure SetUserAccess.Answered (m : SetUserAccess) (rsp : UserAccessRsp) : Prop where
  privilegeLimit : rsp.privilegeLimit = m.userPrivilege
  chaAccessMode : m.changeEnable = 1 → rsp.chaAccessMode = m.userRestricted
  linkAuthentication : m.changeEnable = 1 → rsp.linkAuthentication = m.authenticationEnable
  ipmiMessaging : m.changeEnable = 1 → rsp.ipmiMessaging = m.messagingEnable

instance (m : SetUserAccess) (rsp : UserAccessRsp) : Decidable (m.Answered rsp) :=
  decidable_of_iff
    (rsp.privilegeLimit = m.userPrivilege
      ∧ (m.changeEnable = 1 → rsp.chaAccessMode = m.userRestricted)
      ∧ (m.changeEnable = 1 → rsp.linkAuthentication = m.authenticationEnable)
      ∧ (m.changeEnable = 1 → rsp.ipmiMessaging = m.messagingEnable))
    ⟨fun ⟨h₁, h₂, h₃, h₄⟩ => ⟨h₁, h₂, h₃, h₄⟩, fun ⟨h₁, h₂, h₃, h₄⟩ => ⟨h₁, h₂, h₃, h₄⟩⟩

/-- A request for the access, for the same user and channel, is answered by what was set. -/
def UserAccessRoundTrip (env : Env) (m : SetUserAccess) (ctx : IpmiCtx) (s : State) : Prop :=
  ∃ rsp, getIpmiUserAccess env m.userId m.channelNumber ctx s = .ok rsp ∧ m.Answered rsp

instance (env : Env) (m : SetUserAccess) (ctx : IpmiCtx) (s : State) :
    Decidable (UserAccessRoundTrip env m ctx s) :=
  match h : getIpmiUserAccess env m.userId m.channelNumber ctx s with
  | .error _ => isFalse fun ⟨_, hrsp, _⟩ => nomatch h.symm.trans hrsp
  | .ok rsp => decidable_of_iff (m.Answered rsp)
    ⟨fun hans => ⟨rsp, h, hans⟩, fun ⟨_, hrsp, hans⟩ => Except.ok.inj (h.symm.trans hrsp) ▸ hans⟩

/-- The configuration of the channel that is read says before the request what it sets. -/
def AlreadySet (env : Env) (m : SetUserAccess) (ctx : IpmiCtx) (s : State) : Prop :=
  ∃ ch, channelNumberTranslation env (presentChannel m.channelNumber ctx) = some ch
    ∧ m.Answered (channelAnswer (s.channel m.userId ch))

/-! ## What setting the access changes -/

/-- What `set_role_id` leaves as it is: the configuration of the service, which accounts
there are, and the channels other than the first. -/
structure AccessFrame (id : ℕ) (s₀ s : State) : Prop where
  config : s.config = s₀.config
  account : id ∈ s.accounts ↔ id ∈ s₀.accounts
  channel : ∀ ch, ch ≠ 1 → s.channel id ch = s₀.channel id ch

section Frame

variable {id : ℕ} {s₀ : State}

theorem AccessFrame.refl (s : State) :
  AccessFrame id s s where
  config := rfl
  account := Iff.rfl
  channel _ _ := rfl

theorem AccessFrame.modifyAccount {s : State} (h : AccessFrame id s₀ s) (j : ℕ)
    (f : Account → Account) :
  AccessFrame id s₀ (s.modifyAccount j f) where
  config := h.config
  account := by
    rw [← h.account]
    exact Table.mem_modify j id f s.accounts
  channel := h.channel

theorem callAccount_keeps_accessFrame {j : ℕ} {f : Config → Account → Except Err Account} :
  Keeps (AccessFrame id s₀) (callAccount j f)
  := by
  unfold callAccount
  apply Keeps.bind Keeps.get
  intro s
  cases s.accounts.lookup j with
  | none => apply Keeps.throw
  | some a =>
    simp only
    cases f s.config a with
    | error e => apply Keeps.throw
    | ok a' =>
      apply Keeps.modify
      intro s h
      apply h.modifyAccount

theorem updateAccount_keeps_accessFrame {j : ℕ} {f : Config → Account → Account} :
  Keeps (AccessFrame id s₀) (updateAccount j f)
  := by
  apply Keeps.modify
  intro s h
  apply h.modifyAccount

theorem updateDeletable_keeps_accessFrame :
  Keeps (AccessFrame id s₀) updateDeletable
  := by
  apply Keeps.modify
  intro s h
  refine ⟨h.config, ?_, h.channel⟩
  rw [← h.account, AList.mem_keys, AList.mem_keys, Table.keys_map]

theorem channel_setChannel (s : State) (ch : ℕ) (row : ChannelConfig) (ch' : ℕ) :
  (s.setChannel id ch row).channel id ch' = if ch' = ch then some row else s.channel id ch'
  := by
  simp only [State.channel, State.setChannel, AList.lookup_insert, Option.bind_some]
  by_cases h : ch' = ch
  · rw [h, AList.lookup_insert, if_pos rfl]
  · rw [AList.lookup_insert_ne h, if_neg h]
    cases s.channels.lookup id with
    | none => rfl
    | some t => rfl

theorem limitFirstChannel_keeps_accessFrame {p : IpmiPrivilege} :
  Keeps (AccessFrame id s₀) (limitFirstChannel id p)
  := by
  unfold limitFirstChannel
  apply Keeps.bind Keeps.get
  intro s
  apply Keeps.ite _ Keeps.pure
  cases s.channel id 1 with
  | none => apply Keeps.pure
  | some row =>
    apply Keeps.modify
    intro s h
    refine ⟨h.config, h.account, fun ch hch => ?_⟩
    rw [channel_setChannel, if_neg hch]
    exact h.channel ch hch

theorem setRoleId_keeps_accessFrame (env : Env) (roleId : ℕ) (p : Option IpmiPrivilege) :
  Keeps (AccessFrame id s₀) (setRoleId env id roleId p)
  := by
  unfold setRoleId
  refine Keeps.bind getAccount_keeps fun _ => Keeps.bind Keeps.refuse fun _ => ?_
  refine Keeps.bind refuseLastOperateAdmin_keeps fun _ => ?_
  refine Keeps.bind refuseEmergencyUser_keeps fun _ => ?_
  refine Keeps.bind callAccount_keeps_accessFrame fun _ => ?_
  refine Keeps.bind updateAccount_keeps_accessFrame fun _ => ?_
  exact Keeps.bind limitFirstChannel_keeps_accessFrame fun _ => updateDeletable_keeps_accessFrame

end Frame

theorem value_of_ofValue {n : ℕ} {p : IpmiPrivilege} (h : IpmiPrivilege.ofValue n = some p) :
  p.value = n
  := by
  unfold IpmiPrivilege.ofValue at h
  split at h <;> cases h <;> rfl

/-- What is known of a request that passes the checks. -/
structure Checked (env : Env) (req : UserAccessReq) (ctx : IpmiCtx) (s : State)
    (p : IpmiPrivilege) (ch : ℕ) : Prop where
  privilege : p.value = req.userPrivilege
  userId : minUserNum ≤ req.userId ∧ req.userId ≤ maxUserNum
  account : req.userId ∈ s.accounts
  channel : channelNumberTranslation env (req.channel ctx) = some ch
  supported : ch ∈ defaultChannels
  single : env.multiChannelStatus = 0 → ch = 1

theorem checked_of_inputCheck {env : Env} {req : UserAccessReq} {ctx : IpmiCtx} {s : State}
    {p : IpmiPrivilege} {limit : ℕ}
    (h : ipmiSetUserAccessInputCheck env req ctx s = .ok (p, limit)) :
  ∃ ch, Checked env req ctx s p ch
  := by
  unfold ipmiSetUserAccessInputCheck at h
  split at h
  · cases h
  · cases h
  · rename_i p' _ hp
    split_ifs at h with hid hacc
    cases hch : channelNumberTranslation env (req.channel ctx) with
    | none => simp [hch] at h
    | some ch =>
      simp only [hch] at h
      split_ifs at h with hsup
      cases hl : checkSessionLimit req.sessionLimit with
      | error e => simp [hl, Except.map] at h
      | ok l =>
        obtain ⟨rfl, rfl⟩ : p' = p ∧ l = limit := by simpa [hl, Except.map] using h
        simp only [Bool.or_eq_true, decide_eq_true_eq, not_or, not_lt] at hid
        simp only [Bool.or_eq_true, Bool.not_eq_true', Bool.and_eq_true, decide_eq_true_eq,
          bne_iff_ne, not_or, not_and, not_not, Bool.not_eq_false] at hsup
        exact ⟨ch,
          { privilege := value_of_ofValue hp
            userId := hid
            account := by
              rw [← AList.lookup_isSome]
              simpa [Option.isSome_iff_ne_none] using hacc
            channel := hch
            supported := by simpa using hsup.1
            single := hsup.2 }⟩

/-- What an accepted request does to the state. -/
structure AccessSet (env : Env) (req : UserAccessReq) (ctx : IpmiCtx) (s s' : State)
    (p : IpmiPrivilege) : Prop where
  config : s'.config = s.config
  account : req.userId ∈ s'.accounts
  stored : ∃ old limit, s'.channel req.userId (req.channel ctx)
    = some (State.channelRow old (req.channelConfig ctx p limit) req.changeEnable)
  others : env.multiChannelStatus ≠ 0 → ∀ ch, ch ≠ req.channel ctx →
    s'.channel req.userId ch = s.channel req.userId ch

theorem setIpmiUserAccess_ok {env : Env} {req : UserAccessReq} {ctx : IpmiCtx} {s s' : State}
    (h : exec (setIpmiUserAccess env req ctx) s = (.ok (), s')) :
  ∃ p ch, Checked env req ctx s p ch ∧ hostUserMgntEnabled s.config ctx = true
    ∧ AccessSet env req ctx s s' p
  := by
  rw [exec_setIpmiUserAccess] at h
  cases hcheck : ipmiSetUserAccessInputCheck env req ctx s with
  | error e => simp [hcheck] at h
  | ok r =>
    obtain ⟨p, limit⟩ := r
    simp only [hcheck] at h
    obtain ⟨ch, hchecked⟩ := checked_of_inputCheck hcheck
    obtain ⟨_, _, hrefuse, hrest⟩ := exec_bind_eq_ok h
    obtain ⟨hhost, rfl⟩ := exec_refuse_eq_ok hrefuse
    obtain ⟨_, s₁, hrole, hend⟩ := exec_bind_eq_ok hrest
    have hframe : Keeps (AccessFrame req.userId s) (onlyIf (setsRole env req ctx)
        (setRoleId env req.userId (privilegeToRole p).value (some p))) :=
      Keeps.onlyIf (setRoleId_keeps_accessFrame env _ _)
    have hstart := hframe s (AccessFrame.refl s)
    simp only [hrole] at hstart
    obtain rfl : (s₁.updateChannel req.userId (req.channelConfig ctx p limit)
        req.changeEnable).modifyAccount req.userId (Account.setIpmiUserAccess req p) = s' :=
      congrArg Prod.snd hend
    refine ⟨p, ch, hchecked, by simpa using hhost, ?_⟩
    exact
      { config := hstart.config
        account := (Table.mem_modify _ _ _ _).mpr (hstart.account.mpr hchecked.account)
        stored := ⟨_, limit, (channel_setChannel s₁ _ _ _).trans (if_pos rfl)⟩
        others := by
          intro hmulti ch' hne
          refine ((channel_setChannel s₁ _ _ ch').trans (if_neg hne)).trans ?_
          by_cases hfirst : req.channel ctx = 1
          · exact hstart.channel ch' fun h => hne (h.trans hfirst.symm)
          · have hno : setsRole env req ctx = false := by simp [setsRole, hmulti, hfirst]
            rw [hno] at hrole
            rw [show s₁ = s from (congrArg Prod.snd hrole).symm] }

/-! ## The round trip -/

theorem answered_congr {m : SetUserAccess} {r r' : UserAccessRsp}
    (hlimit : r.privilegeLimit = r'.privilegeLimit)
    (hmode : r.chaAccessMode = r'.chaAccessMode)
    (hlink : r.linkAuthentication = r'.linkAuthentication)
    (hmsg : r.ipmiMessaging = r'.ipmiMessaging) :
  m.Answered r ↔ m.Answered r'
  := by
  constructor
  · rintro ⟨h₁, h₂, h₃, h₄⟩
    exact ⟨hlimit ▸ h₁, hmode ▸ h₂, hlink ▸ h₃, hmsg ▸ h₄⟩
  · rintro ⟨h₁, h₂, h₃, h₄⟩
    exact ⟨hlimit ▸ h₁, hmode ▸ h₂, hlink ▸ h₃, hmsg ▸ h₄⟩

/-- The answer about an account says what the configuration of the channel says. -/
theorem answered_getIpmiUserAccess {m : SetUserAccess} {s : State} {id : ℕ}
    (h : id ∈ s.accounts) (ch : ℕ) :
  m.Answered (s.getIpmiUserAccess id ch) ↔ m.Answered (channelAnswer (s.channel id ch))
  := by
  obtain ⟨a, ha⟩ := Option.isSome_iff_exists.mp (AList.lookup_isSome.mpr h)
  unfold State.getIpmiUserAccess
  simp only [ha]
  exact answered_congr rfl rfl rfl rfl

theorem val_eq_ite (i : Fin 2) :
  (if decide (i.val = 1) = true then 1 else 0) = i.val
  := by
  revert i
  decide

/-- The row that a request stores says what it sets. -/
theorem answered_channelRow {m : SetUserAccess} {ctx : IpmiCtx} {p : IpmiPrivilege}
    (hp : p.value = m.userPrivilege) (old : Option ChannelConfig) (limit : ℕ) :
  m.Answered (channelAnswer (some
    (State.channelRow old (m.req.channelConfig ctx p limit) m.changeEnable)))
  := by
  have hval : (m.changeEnable : ℕ) = 1 ↔ m.changeEnable = 1 := ⟨fun h => Fin.ext h, congrArg _⟩
  unfold State.channelRow
  by_cases hc : m.changeEnable = 1
  · rw [if_pos (hval.mpr hc)]
    exact
      { privilegeLimit := hp
        chaAccessMode := fun _ => rfl
        linkAuthentication := fun _ => val_eq_ite m.authenticationEnable
        ipmiMessaging := fun _ => val_eq_ite m.messagingEnable }
  · rw [if_neg (mt hval.mp hc)]
    refine ⟨?_, fun h => absurd h hc, fun h => absurd h hc, fun h => absurd h hc⟩
    cases old with
    | none => exact hp
    | some row => exact hp

/-- The answer to a request for the access after an accepted one. -/
theorem getIpmiUserAccess_of_checked {env : Env} {m : SetUserAccess} {ctx : IpmiCtx}
    {s s' : State} {p : IpmiPrivilege} {ch : ℕ} (h : Checked env m.req ctx s p ch)
    (hhost : hostUserMgntEnabled s'.config ctx = true) :
  getIpmiUserAccess env m.userId m.channelNumber ctx s'
    = if env.multiChannelStatus = 0 ∧ presentChannel m.channelNumber ctx ≠ 1 then
        .error .ipmiInvalidFieldRequest
      else .ok (s'.getIpmiUserAccess m.userId ch)
  := by
  have hid : ¬ ((m.userId : ℕ) < 1 ∨ maxUserNum < m.userId) := by
    have hmin : 2 ≤ (m.userId : ℕ) := h.userId.1
    have hmax : (m.userId : ℕ) ≤ maxUserNum := h.userId.2
    omega
  have hch : channelNumberTranslation env (presentChannel m.channelNumber ctx) = some ch :=
    h.channel
  have hsup : defaultChannels.contains ch = true := by simpa using h.supported
  simp only [getIpmiUserAccess, Bool.or_eq_true, decide_eq_true_eq, if_neg hid, hch, hsup, hhost,
    Bool.and_eq_true, bne_iff_ne, Bool.not_true, Bool.false_eq_true, if_false]

/-- What was set is read back if and only if the number of the channel is its own
translation, or, where there are several channels, the configuration that is read said the
same before. -/
theorem userAccessRoundTrip_iff (env : Env) (m : SetUserAccess) (ctx : IpmiCtx) (s s' : State)
    (h : exec (setIpmiUserAccess env m.req ctx) s = (.ok (), s')) :
  UserAccessRoundTrip env m ctx s'
    ↔ channelNumberTranslation env (presentChannel m.channelNumber ctx)
        = some (presentChannel m.channelNumber ctx)
      ∨ (env.multiChannelStatus ≠ 0 ∧ AlreadySet env m ctx s)
  := by
  obtain ⟨p, ch, hchecked, hhost, hset⟩ := setIpmiUserAccess_ok h
  have hch : channelNumberTranslation env (presentChannel m.channelNumber ctx) = some ch :=
    hchecked.channel
  have hget := getIpmiUserAccess_of_checked hchecked (hset.config ▸ hhost)
  have hanswer := answered_getIpmiUserAccess (m := m) hset.account ch
  by_cases hown : presentChannel m.channelNumber ctx = ch
  · have hsingle : ¬ (env.multiChannelStatus = 0 ∧ presentChannel m.channelNumber ctx ≠ 1) := by
      rintro ⟨hzero, hne⟩
      exact hne (hown.trans (hchecked.single hzero))
    rw [if_neg hsingle] at hget
    obtain ⟨old, limit, hstored⟩ := hset.stored
    refine iff_of_true ⟨_, hget, hanswer.mpr ?_⟩ (Or.inl (hch.trans (congrArg some hown.symm)))
    rw [← hown]
    exact hstored ▸ answered_channelRow hchecked.privilege old limit
  · have hne : ch ≠ presentChannel m.channelNumber ctx := fun h => hown h.symm
    rw [hch, Option.some_inj, or_iff_right hne]
    by_cases hmulti : env.multiChannelStatus = 0
    · have hsingle : env.multiChannelStatus = 0 ∧ presentChannel m.channelNumber ctx ≠ 1 :=
        ⟨hmulti, fun h => hown (h.trans (hchecked.single hmulti).symm)⟩
      rw [if_pos hsingle] at hget
      refine iff_of_false ?_ fun h => h.1 hmulti
      rintro ⟨rsp, hrsp, -⟩
      rw [hget] at hrsp
      cases hrsp
    · rw [if_neg fun h => hmulti h.1] at hget
      have hrow : s'.channel m.userId ch = s.channel m.userId ch := hset.others hmulti ch hne
      constructor
      · rintro ⟨rsp, hrsp, hans⟩
        rw [hget] at hrsp
        cases hrsp
        exact ⟨hmulti, ch, hch, hrow ▸ hanswer.mp hans⟩
      · rintro ⟨-, ch', hch', hans⟩
        rw [hch, Option.some_inj] at hch'
        subst hch'
        exact ⟨_, hget, hanswer.mpr (hrow ▸ hans)⟩

/-! ### A channel with another number -/

/-- The first channel has the outer number `3`. -/
def remappedEnv : Env :=
  { plainEnv with chNumMaps := [(3, 1)] }

/-- An operator next to the administrator. -/
def operatorState : State :=
  plainState [(2, plainAccount "Administrator" 4 223), (3, plainAccount "user" 3 223)]

/-- Make the user `3` a common user on a channel. -/
def commonUserOn (channelNumber : Fin 16) : SetUserAccess :=
  ⟨channelNumber, 1, 1, 0, 1, 3, 2, [0]⟩

/-- The privilege on the outer channel `3` is set to that of a common user, and that of an
operator is read. -/
theorem remapped_channel_not_read_back :
  (exec (setIpmiUserAccess remappedEnv (commonUserOn 3).req ⟨some 1, none⟩) operatorState).1
      = .ok ()
    ∧ ¬ UserAccessRoundTrip remappedEnv (commonUserOn 3) ⟨some 1, none⟩
      (after (setIpmiUserAccess remappedEnv (commonUserOn 3).req ⟨some 1, none⟩) operatorState)
  := by
  decide +kernel

theorem plain_channel_read_back :
  UserAccessRoundTrip plainEnv (commonUserOn 2) ⟨some 1, none⟩
    (after (setIpmiUserAccess plainEnv (commonUserOn 2).req ⟨some 1, none⟩) operatorState)
  := by
  have hok : exec (setIpmiUserAccess plainEnv (commonUserOn 2).req ⟨some 1, none⟩) operatorState
      = (.ok (), after (setIpmiUserAccess plainEnv (commonUserOn 2).req ⟨some 1, none⟩)
        operatorState) :=
    Prod.ext (show (exec _ _).1 = .ok () by decide +kernel) rfl
  exact (userAccessRoundTrip_iff _ _ _ _ _ hok).mpr (Or.inl (by decide))

end BmcAccount
