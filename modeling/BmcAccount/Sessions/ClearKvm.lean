import BmcAccount.Sessions.Effects
import BmcAccount.Lib.Sweep

/-!
# Clearing the KVM sessions of a host

`delete_all_session` for KVM is a request for one host and one type of addresses. The condition of
its loop is a disjunction of three parts, and only the last of them looks at the host: for all
addresses the first part is enough, so the sessions of every host are deleted. For one type of
addresses a function is called that is not there.

`clears_iff` says what is left of the request.
-/

namespace BmcAccount

namespace Sessions

open Raise

namespace ClearKvm

/-! ## The loop -/

/-- `iam_core.vos_ipv4_addr_valib_check` and `iam_core.vos_ipv6_addr_valib_check`. There are no
such functions. -/
def addrValibCheck (_ipType : IpType) (_ip : String) : Except ServiceErr Bool :=
  .error .internal

/-- A type of addresses is the given one, and the address passes its check. -/
def isOfType (ipType target : IpType) (ip : String) : Except ServiceErr Bool :=
  if ipType = target then addrValibCheck target ip else .ok false

/-- The condition of the loop: `and` binds more tightly than `or`. -/
def isMatch (ipType : IpType) (systemId : SystemId) (x : Session) : Except ServiceErr Bool :=
  if ipType = .all then .ok true
  else do
    if ← isOfType ipType .v4 x.ip then pure true
    else do
      let isV6 ← isOfType ipType .v6 x.ip
      pure (isV6 && x.systemId = some systemId)

/-- `delete_all_system_id_session`. -/
def deleteAllSystemIdSession (ipType : IpType) (systemId : SystemId) : ServiceM Unit :=
  Sweep.sweep (fun s => s.sessions .kvm) .internal (isMatch ipType systemId)
    fun x => modify fun s => s.delete .kvm x.sessionId

/-- `delete_all_session`, for KVM. -/
def deleteAllSession {Dn : Type} (p : Platform) (w : World Dn) (ctx : Ctx) (ipType : IpType) :
    ServiceM Unit := do
  let systemId ← outcome (checkSystemId p w ctx)
  deleteAllSystemIdSession ipType systemId

/-! ## What it does -/

theorem isMatch_all (systemId : SystemId) (x : Session) :
  isMatch .all systemId x = .ok true
  := rfl

theorem isMatch_of_ne_all {ipType : IpType} (h : ipType ≠ .all) (systemId : SystemId)
    (x : Session) :
  isMatch ipType systemId x = .error .internal
  := by
  cases ipType with
  | all => exact absurd rfl h
  | v4 => rfl
  | v6 => rfl

variable {s : Service}

theorem setSessions_self (s : Service) (t : SessionType) :
  s.setSessions t (s.sessions t) = s
  := by
  unfold Service.setSessions
  rw [Function.update_eq_self]

theorem setSessions_setSessions (s : Service) (t : SessionType) (l l' : List Session) :
  (s.setSessions t l).setSessions t l' = s.setSessions t l'
  := by
  unfold Service.setSessions
  rw [Function.update_idem]

/-- A loop that means every session leaves none, even where two have one identifier. -/
theorem exec_sweep_sessions {meant : Session → Except ServiceErr Bool}
    (hmeant : ∀ x, meant x = .ok true) (s : Service) (t : SessionType) :
  exec (Sweep.sweep (fun s : Service => s.sessions t) .internal meant
      fun x => modify fun s => s.delete t x.sessionId) s
    = (.ok (), s.setSessions t [])
  := by
  obtain ⟨s', hexec, rfl⟩ : ∃ s', exec (Sweep.sweep (fun s : Service => s.sessions t) .internal
      meant fun x => modify fun s => s.delete t x.sessionId) s = (.ok (), s')
        ∧ s' = s.setSessions t [] := by
    apply Sweep.exec_sweep_all Session.sessionId fun l s' => s' = s.setSessions t l
    · intro l s' h
      rw [h, Service.sessions_setSessions]
    · exact hmeant
    · rintro l s' x rfl -
      refine ⟨_, rfl, ?_⟩
      change (s.setSessions t l).delete t x.sessionId = _
      unfold Service.delete
      rw [Service.sessions_setSessions, setSessions_setSessions]
    · exact (setSessions_self s t).symm
  exact hexec

/-- For all addresses the sessions of all hosts are deleted. -/
theorem exec_deleteAllSystemIdSession_all (s : Service) (systemId : SystemId) :
  exec (deleteAllSystemIdSession .all systemId) s = (.ok (), s.setSessions .kvm [])
  := exec_sweep_sessions (isMatch_all systemId) s .kvm

theorem exec_deleteAllOfType_all (p : Platform) (s : Service) (t : SessionType) :
  exec (deleteAllOfType p t .all) s = (.ok (), s.setSessions t [])
  := exec_sweep_sessions (fun _ => rfl) s t

theorem exec_deleteAllSystemIdSession_nil (hnil : s.sessions .kvm = []) (ipType : IpType)
    (systemId : SystemId) :
  exec (deleteAllSystemIdSession ipType systemId) s = (.ok (), s)
  := by
  apply Sweep.exec_sweep_none
  rw [hnil]
  intro x hx
  exact absurd hx List.not_mem_nil

/-- For one type of addresses the loop ends at the first session. -/
theorem exec_deleteAllSystemIdSession_error (hsome : s.sessions .kvm ≠ []) {ipType : IpType}
    (h : ipType ≠ .all) (systemId : SystemId) :
  exec (deleteAllSystemIdSession ipType systemId) s = (.error .internal, s)
  := by
  obtain ⟨pre, x, hlast⟩ := (List.eq_nil_or_concat _).resolve_left hsome
  have hread : s.sessions .kvm = pre ++ [x] := by rw [hlast, List.concat_eq_append]
  exact Sweep.exec_sweep_error hread (isMatch_of_ne_all h systemId x)

/-- The service of which only the result of the loop is known does the same. -/
theorem exec_deleteAllSession_eq {Dn : Type} (p : Platform) (w : World Dn) (ctx : Ctx)
    (ipType : IpType) (s : Service) :
  exec (Sessions.deleteAllSession p w ctx (some .kvm) ipType) s
    = exec (deleteAllSession p w ctx ipType) s
  := by
  have hloop (systemId : SystemId) : exec (Sessions.deleteAllSystemIdSession p ipType) s
      = exec (deleteAllSystemIdSession ipType systemId) s := by
    unfold Sessions.deleteAllSystemIdSession
    rw [exec_bind_ok (exec_get s)]
    by_cases hnil : s.sessions .kvm = []
    · rw [exec_deleteAllSystemIdSession_nil hnil]
      simp only [hnil, ne_eq, not_true_eq_false, decide_false, Bool.and_false]
      rw [exec_bind_ok (exec_refuse_false _ s)]
      unfold deleteAllOfType
      rw [exec_bind_ok (exec_get s), hnil]
      rfl
    · by_cases hall : ipType = .all
      · subst hall
        rw [exec_deleteAllSystemIdSession_all]
        simp only [ne_eq, not_true_eq_false, decide_false, Bool.false_and]
        rw [exec_bind_ok (exec_refuse_false _ s), exec_deleteAllOfType_all]
      · rw [exec_deleteAllSystemIdSession_error hnil hall]
        simp only [hall, hnil, ne_eq, not_false_eq_true, decide_true, Bool.and_self]
        rw [exec_bind_error (exec_refuse_true _ s)]
  cases hcheck : checkSystemId p w ctx with
  | error e =>
    change exec (outcome (checkSystemId p w ctx) >>= _) s = _
    unfold deleteAllSession
    rw [hcheck, exec_bind_error (exec_outcome _ s), exec_bind_error (exec_outcome _ s)]
  | ok systemId =>
    change exec (outcome (checkSystemId p w ctx) >>= _) s = _
    unfold deleteAllSession
    rw [hcheck, exec_bind_ok (exec_outcome _ s), exec_bind_ok (exec_outcome _ s)]
    exact hloop systemId

/-! ## One host -/

/-- The identifier of the session is the given one. -/
def isUnder (systemId : SystemId) (x : Session) : Bool :=
  x.systemId = some systemId

/-- The session is on the host that the identifier is the number of. -/
def isOn (p : Platform) (systemId : SystemId) (x : Session) : Bool :=
  x.systemId.bind p.number = p.number systemId

/-- The address of the session is of the type. -/
def hasType (p : Platform) (ipType : IpType) (x : Session) : Bool :=
  ipType = .all || p.isAddress ipType x.ip

section Clears

variable {Dn : Type} {p : Platform} {w : World Dn} {ctx : Ctx}

/-- The call returns and removes the sessions of KVM that are those of the host and have an address
of the type. All else is as before. -/
def Clears (p : Platform) (w : World Dn) (ctx : Ctx) (ipType : IpType) (own : Session → Bool)
    (s : Service) : Prop :=
  exec (deleteAllSession p w ctx ipType) s
    = (.ok (), s.remove .kvm fun x => own x && hasType p ipType x)

/-- A request does what it should if there is no session, or if it is for all addresses and all
sessions are those of the host. -/
theorem clears_iff {systemId : SystemId} (h : checkSystemId p w ctx = .ok systemId)
    (s : Service) (ipType : IpType) (own : Session → Bool) :
  Clears p w ctx ipType own s
    ↔ s.sessions .kvm = [] ∨ ipType = .all ∧ ∀ x ∈ s.sessions .kvm, own x = true
  := by
  unfold Clears deleteAllSession
  rw [h, exec_bind_ok (exec_outcome _ s)]
  by_cases hnil : s.sessions .kvm = []
  · have hsame : s.remove .kvm (fun x => own x && hasType p ipType x) = s := by
      unfold Service.remove
      rw [hnil, List.filter_nil, ← hnil, setSessions_self]
    rw [exec_deleteAllSystemIdSession_nil hnil, hsame]
    simp [hnil]
  · by_cases hall : ipType = .all
    · subst hall
      have hleft : s.remove .kvm (fun x => own x && hasType p .all x)
          = s.setSessions .kvm ((s.sessions .kvm).filter fun x => !own x) := by
        unfold Service.remove hasType
        simp only [decide_true, Bool.true_or, Bool.and_true]
      rw [exec_deleteAllSystemIdSession_all, hleft]
      simp only [hnil, false_or, true_and]
      constructor
      · intro heq x hx
        have hlist := congrArg (fun r => r.2.sessions .kvm) heq
        simp only [Service.sessions_setSessions] at hlist
        simpa using List.filter_eq_nil_iff.mp hlist.symm x hx
      · intro hown
        have hlist : (s.sessions .kvm).filter (fun x => !own x) = [] := by
          rw [List.filter_eq_nil_iff]
          intro x hx
          rw [hown x hx]
          exact Bool.false_ne_true
        rw [hlist]
    · rw [exec_deleteAllSystemIdSession_error hnil hall]
      simp [hnil, hall]

/-- A request for a host that is there does what it should in no other case, whether the host is
told by the identifier or by its number. -/
theorem clearsHost_iff {systemId : SystemId} (h : checkSystemId p w ctx = .ok systemId)
    (s : Service) (ipType : IpType) :
  (Clears p w ctx ipType (isUnder systemId) s
    ↔ s.sessions .kvm = [] ∨ ipType = .all ∧ ∀ x ∈ s.sessions .kvm, isUnder systemId x = true)
  ∧ (Clears p w ctx ipType (isOn p systemId) s
    ↔ s.sessions .kvm = [] ∨ ipType = .all ∧ ∀ x ∈ s.sessions .kvm, isOn p systemId x = true)
  := ⟨clears_iff h s ipType _, clears_iff h s ipType _⟩

end Clears

/-! ### Two hosts -/

/-- A session of KVM on a host. -/
def kvmSession (sessionId : String) (system : ℤ) : Session where
  username := "user"
  accountId := 2
  authType := .localUser
  browserType := none
  token := sessionId
  sessionId := sessionId
  ip := "192.168.1.2"
  createdTime := 0
  lastLoginIp := ""
  lastLoginTime := 0
  lastActiveTime := 0
  roleId := [4]
  privilege := [.kvmMgmt]
  ssoToken := none
  sessionMode := some .shared
  validFlag := true
  noValidCheckTime := 0
  systemId := some (.number system)
  remoteDict := none

/-- A session on each of two hosts. -/
def twoHosts : Service :=
  plainService.setSessions .kvm [kvmSession "a" 1, kvmSession "b" 2]

theorem clearsHost_iff_twoHosts :
  checkSystemId plainPlatform (plainWorld "c") plainCtx = .ok (.number 1) ∧
    ((Clears plainPlatform (plainWorld "c") plainCtx .all (isUnder (.number 1)) twoHosts
      ↔ twoHosts.sessions .kvm = [] ∨ IpType.all = .all ∧
        ∀ x ∈ twoHosts.sessions .kvm, isUnder (.number 1) x = true)
    ∧ (Clears plainPlatform (plainWorld "c") plainCtx .all (isOn plainPlatform (.number 1)) twoHosts
      ↔ twoHosts.sessions .kvm = [] ∨ IpType.all = .all ∧
        ∀ x ∈ twoHosts.sessions .kvm, isOn plainPlatform (.number 1) x = true))
  := ⟨rfl, clearsHost_iff rfl twoHosts .all⟩

/-- The request for the first host deletes the session of the second one too, and for the addresses
of IPv4 it raises an error. -/
theorem twoHosts_not_clears :
  checkSystemId plainPlatform (plainWorld "c") plainCtx = .ok (.number 1) ∧
    ¬ Clears plainPlatform (plainWorld "c") plainCtx .all (isUnder (.number 1)) twoHosts ∧
    ¬ Clears plainPlatform (plainWorld "c") plainCtx .v4 (isUnder (.number 1)) twoHosts
  := by
  refine ⟨rfl, fun h => ?_, fun h => ?_⟩
  · have hlist := congrArg (fun r => (r.2.sessions .kvm).length) h
    revert hlist
    decide +kernel
  · have hok := congrArg (fun r => r.1.isOk) h
    revert hok
    decide +kernel

end ClearKvm

end Sessions

end BmcAccount
