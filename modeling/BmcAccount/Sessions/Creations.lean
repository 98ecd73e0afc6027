import BmcAccount.Sessions.AccountCache
import BmcAccount.Sessions.Removals

/-!
# What the requests that create sessions do to the ledger

A request makes moves, creates at most one session with the identifier that is generated for it,
and makes moves again. What it removes without recording it is removed for SSO: the sessions that
make room for another one, and the one that a login has been made with.
-/

namespace BmcAccount

namespace Sessions

open Raise

/-! ## The service -/

/-- The identifiers of the sessions of a type. -/
def Service.ids (s : Service) (t : SessionType) : List String := (s.sessions t).map (·.sessionId)

/-- The identifiers are the same. -/
def Service.SameIds (s s' : Service) : Prop := ∀ t, s'.ids t = s.ids t

/-- The identifiers are the same, or one type has got a session with a given one. -/
def Service.Adds (i : String) (s s' : Service) : Prop :=
  s.SameIds s' ∨ ∃ t, s'.ids t = s.ids t ++ [i] ∧ ∀ u, u ≠ t → s'.ids u = s.ids u

section Adds

variable {Dn : Type} {p : Platform} {w : World Dn} {s : Service}

/-- What enters a session adds its identifier. -/
theorem adds_of_enters {m : ServiceM Session} {t : SessionType} {i : String}
    (hm : ∀ s : Service, Spec s.SameSessions m (s.Enters i t) s.SameSessions) (s : Service) :
  Spec s.SameIds m (fun _ => s.Adds i) s.SameIds
  := by
  intro s' hs
  have hmove := hm s' s' rfl
  rcases hexec : exec m s' with ⟨e | x, s''⟩
  · rw [hexec] at hmove
    intro u
    rw [Service.ids, show s''.sessions = s'.sessions from hmove]
    exact hs u
  · rw [hexec] at hmove
    obtain ⟨hid, -, hsessions⟩ := hmove
    refine Or.inr ⟨t, ?_, ?_⟩
    · rw [Service.ids, hsessions, Service.insert, Service.sessions_setSessions, List.map_append,
        List.map_singleton, hid]
      exact congrArg (· ++ [i]) (hs t)
    · intro u hu
      rw [Service.ids, hsessions, Service.insert, Service.sessions_setSessions_ne _ _ hu]
      exact hs u

theorem keeps_ids_handleIfRemoteSession (t : SessionType) (authType : AuthType)
    (group : Option RemoteDict) :
  Keeps s.SameIds (handleIfRemoteSession t authType group)
  := by
  apply Keeps.onlyIf
  apply Keeps.modify
  intro s' hs u
  unfold Service.ids
  by_cases hu : u = t
  · subst hu
    rw [Service.sessions_setSessions, ← Service.ids, ← hs u, Service.ids]
    rcases List.eq_nil_or_concat (s'.sessions u) with hnil | ⟨init, x, hx⟩
    · rw [hnil]
      rfl
    · rw [hx, List.concat_eq_append, List.modifyLast_concat]
      simp
  · rw [Service.sessions_setSessions_ne _ _ hu]
    exact hs u

end Adds

namespace Registry

section Create

variable {Dn : Type} {p : RegistryPlatform} {w : World Dn} {φ : Removal → Prop} {L : Ledger}
  {i : String}

theorem ledger_sameIds {s : Registry} {service : Service} (h : s.service.SameIds service) :
  ({ s with service := service } : Registry).ledger = s.ledger
  := by
  unfold ledger
  congr 1
  apply live_congr
  · rfl
  intro sh _
  cases sh with
  | ordinary t => exact h t
  | cli | interChassis | interChassisGui => rfl

theorem ledger_setOne {s s' : Registry} (sh : Shelf) (hsh : sh ≠ .cli)
    (hsame : s'.inner = s.inner ∧ s'.removed = s.removed
      ∧ s'.logoutCollection = s.logoutCollection)
    (h : s'.ids sh = s.ids sh ++ [i]) (hne : ∀ sh', sh' ≠ sh → s'.ids sh' = s.ids sh') :
  s'.ledger = s.ledger.enter i
  := by
  have hlive := live_change (X := 0) (Y := {i}) hsh hsame.1
    (by rw [h, add_zero, ← Multiset.coe_singleton, Multiset.coe_add]) hne
  rw [add_zero, add_comm] at hlive
  apply Ledger.ext
  · exact hlive
  · exact hne .cli (Ne.symm hsh)
  · exact hsame.2.1
  · exact hsame.2.2

/-- The ledger has made moves, and perhaps a session has been created. -/
def Made (φ : Removal → Prop) (i : String) (L : Ledger) (s : Registry) : Prop :=
  Ledger.Creates φ i L s.ledger

theorem Moved.made_onService {α : Type} {m : ServiceM α} {s : Registry}
    (h : Moved φ L s) (hm : s.service.Adds i (Raise.after m s.service)) :
  Made φ i L { s with service := Raise.after m s.service }
  := by
  rcases hm with hsame | ⟨t, hids, hne⟩
  · have hledger := ledger_sameIds hsame
    unfold Made
    rw [hledger]
    exact .none h
  · have hledger : ({ s with service := Raise.after m s.service } : Registry).ledger
        = s.ledger.enter i := by
      refine ledger_setOne (.ordinary t) (fun h => by cases h) ⟨rfl, rfl, rfl⟩ hids ?_
      intro sh hsh
      cases sh with
      | ordinary u => exact hne u fun hu => hsh (congrArg Shelf.ordinary hu)
      | cli | interChassis | interChassisGui => rfl
    unfold Made
    rw [hledger]
    exact .one h .refl

theorem exec_onService {α : Type} (m : ServiceM α) (s : Registry) :
  exec (onService m) s
    = ((exec m s.service).1.mapError .service, { s with service := Raise.after m s.service })
  := by
  unfold onService
  rw [exec_bind_ok (exec_get s), exec_bind_ok (exec_modify _ s), exec_outcome]
  rfl

/-- A program of the service that creates at most one session. -/
theorem spec_onService {α : Type} {m : ServiceM α}
    (hm : ∀ s : Service, Spec s.SameIds m (fun _ => s.Adds i) s.SameIds) :
  Spec (Moved φ L) (onService m) (fun _ => Made φ i L) (Made φ i L)
  := by
  intro s hs
  have hadds : s.service.Adds i (Raise.after m s.service) := by
    apply Spec.after _ (show s.service.SameIds s.service from fun _ => rfl)
    exact (hm s.service).weaken (fun _ h => h) (fun _ _ h => h) (fun _ h => Or.inl h)
  rw [exec_onService]
  have hmade := hs.made_onService hadds
  cases (exec m s.service).1 <;> exact hmade

/-- A program of the service that creates none. -/
theorem keeps_onService {α : Type} {m : ServiceM α}
    (hm : ∀ s : Service, Keeps s.SameIds m) :
  Keeps (Made φ i L) (onService m)
  := by
  intro s hs
  have hsame := (hm s.service).after (show s.service.SameIds s.service from fun _ => rfl)
  have hmade : Made φ i L { s with service := Raise.after m s.service } := by
    unfold Made
    rw [ledger_sameIds hsame]
    exact hs
  rw [exec_onService]
  cases (exec m s.service).1 <;> exact hmade

end Create

/-! ## Requests that create sessions -/

section Requests

variable {Dn : Type} {p : RegistryPlatform} {w : World Dn} {φ : Removal → Prop} {s : Registry}
  {i : String}

/-- What the service has found is at hand. -/
theorem exec_outcome_service {α : Type} (a : α) (s : Registry) :
  exec (outcome ((Except.ok a : Except ServiceErr α).mapError RegistryErr.service)) s = (.ok a, s)
  := rfl

theorem exec_relogin (t : SessionType) (username : String) (s : Registry) :
  ∃ s', exec (relogin t username) s = (.ok (), s') ∧ s'.service = s.service.relogin t username
    ∧ Ledger.Moves φ s.ledger s'.ledger
  := by
  unfold relogin
  rw [exec_bind_ok (exec_get s)]
  by_cases hmode : s.service.sessionMode t = .exclusive
  · obtain ⟨s', hexec, hmoves⟩ := exec_deleteAndRecord (φ := φ) [.ordinary t] .sessionRelogin
      (fun x => username = x.username) s
    have hservice : (Raise.after (deleteAndRecord [.ordinary t] .sessionRelogin
        fun x => username = x.username) s).service = s.service.deleteByUsername t username := rfl
    unfold Raise.after at hservice
    rw [hexec] at hservice
    refine ⟨s', ?_, ?_, hmoves⟩
    · rw [decide_eq_true hmode]
      exact hexec
    · rw [hservice, Service.relogin, if_pos hmode]
  · refine ⟨s, ?_, ?_, .refl⟩
    · rw [decide_eq_false hmode]
      exact exec_onlyIf_false _ s
    · rw [Service.relogin, if_neg hmode]

theorem made_onService {α : Type} {m : ServiceM α}
    (hm : ∀ s : Service, Spec s.SameIds m (fun _ => s.Adds i) s.SameIds) (s : Registry) :
  Made φ i s.ledger (Raise.after (onService m) s)
  := by
  have hmoved : Moved φ s.ledger s := Relation.ReflTransGen.refl
  exact (spec_onService hm).after hmoved

/-- What has been reached by moves can be made longer. -/
theorem Made.head {L : Ledger} {s' : Registry} (h : Ledger.Moves φ L s.ledger)
    (hs : Made φ i s.ledger s') :
  Made φ i L s'
  := by
  cases hs with
  | none hs => exact .none (h.trans hs)
  | one hs₁ hs₂ => exact .one (h.trans hs₁) hs₂

/-- Where SSO is full, the other sessions are removed without being recorded. -/
theorem made_ssoCreate (account : AccountInfo) (authType : AuthType) (ip : String)
    (browserType : Option ℤ)
    (hφ : s.service.havaFreeSession .sso = false →
      ∀ x ∈ s.service.sessions .sso, φ ⟨false, x.sessionId, .sessionRelogin⟩) :
  Made φ (p.generateSessionId w.token) s.ledger
    (Raise.after (ssoCreate p w account authType ip browserType) s)
  := by
  have hclear : Keeps (Reaches φ s) (onlyIf (!s.service.havaFreeSession .sso)
      (deleteAllOf p (.ordinary .sso) .sessionRelogin (fun _ => .ok true) (.ordinary .sso))) := by
    cases hfree : s.service.havaFreeSession .sso with
    | true => exact Keeps.pure
    | false => exact keeps_deleteAllOf fun x hx _ => hφ hfree x hx
  have hcreate : Spec (Moved φ s.ledger) (onService (do
      let x ← outcome (orInternal
        (newSessionObject w p.toPlatform account authType ip browserType none))
      addSession .sso (x.place none (.number 0))))
      (fun _ => Made φ (p.generateSessionId w.token) s.ledger)
      (Made φ (p.generateSessionId w.token) s.ledger) := by
    apply spec_onService
    apply adds_of_enters
    intro s
    exact enters_newSessionObject (f := (·.place none (.number 0))) (fun _ => ⟨rfl, rfl⟩)
      account authType ip browserType none
  unfold ssoCreate Raise.after
  rw [exec_bind_ok (exec_get s)]
  have hspec := Spec.bind
    (hclear.weaken (fun _ h => h) (fun _ _ h => h.1) fun _ h => .none h.1) fun _ => hcreate
  exact hspec.after (reaches_refl s)

/-- The part of a login after the authentication. -/
theorem made_newOrdinarySession (username : String) (info : AccountInfo) (authType : AuthType)
    (t : SessionType) (ip : String) (extra : ExtraData)
    (hφ : t = .sso → (s.service.relogin .sso username).havaFreeSession .sso = false →
      ∀ x ∈ (s.service.relogin .sso username).sessions .sso,
        φ ⟨false, x.sessionId, .sessionRelogin⟩) :
  Made φ (p.generateSessionId w.token) s.ledger
    (Raise.after (newOrdinarySession p w username info authType t ip extra) s)
  := by
  obtain ⟨s₁, hexec, hservice, hmoves⟩ := exec_relogin (φ := φ) t username s
  unfold newOrdinarySession Raise.after
  rw [exec_bind_ok hexec]
  apply Made.head hmoves
  by_cases ht : t = .sso
  · subst ht
    rw [if_pos rfl]
    apply made_ssoCreate
    rw [hservice]
    exact hφ rfl
  · rw [if_neg ht]
    exact made_onService (adds_of_enters fun _ => enters_create _ _ _ _ _) s₁

/-- A login. -/
theorem made_newSession (ctx : Ctx) (username password : String) (t : SessionType)
    (domain ip : String) (extra : ExtraData)
    (hφ : t = .sso → ∀ r, admission w s.service ctx username password t domain ip extra = .ok r →
      (s.service.relogin .sso username).havaFreeSession .sso = false →
      ∀ x ∈ (s.service.relogin .sso username).sessions .sso,
        φ ⟨false, x.sessionId, .sessionRelogin⟩) :
  Made φ (p.generateSessionId w.token) s.ledger
    (Raise.after (newSession p w ctx username password t domain ip extra) s)
  := by
  have hend (r : AccountInfo × AuthType) (x : Session) :
      Keeps (Made φ (p.generateSessionId w.token) s.ledger)
        (onService (handleIfRemoteSession t r.2 r.1.group) >>= fun _ => pure x) := by
    apply Keeps.bind (keeps_onService fun s => keeps_ids_handleIfRemoteSession t r.2 r.1.group)
    intro _
    exact Keeps.pure
  unfold newSession Raise.after
  rw [exec_bind_ok (exec_get s)]
  cases hr : admission w s.service ctx username password t domain ip extra with
  | error e => exact .none .refl
  | ok r =>
    rw [exec_bind_ok (exec_outcome_service r s)]
    by_cases ht : t = .kvm
    · simp only [if_pos ht]
      apply after_bind _ (hend r)
      exact made_onService (adds_of_enters fun _ => enters_newKvmSession _ _ _ _ _) s
    · simp only [if_neg ht]
      refine after_bind (made_newOrdinarySession _ _ _ _ _ _ fun htype => ?_) (hend r)
      exact hφ htype r hr

/-- The session that is created from a session of SSO. -/
theorem made_newSessionFromSso (ctx : Ctx) (x : Session) (ssoToken : String) (t : SessionType)
    (mode : OccupationMode) :
  Made φ (p.generateSessionId w.token) s.ledger
    (Raise.after (newSessionFromSso p w ctx x ssoToken t mode) s)
  := by
  cases t with
  | gui =>
    obtain ⟨s₁, hexec, _, hmoves⟩ := exec_relogin (φ := φ) .gui x.username s
    unfold newSessionFromSso Raise.after
    dsimp only
    rw [exec_bind_ok hexec]
    exact Made.head hmoves (made_onService (adds_of_enters fun _ => enters_create _ _ _ _ _) s₁)
  | kvm => exact made_onService (adds_of_enters fun _ => enters_newKvmSessionBySso _ _ _) s
  | redfish | sso | vnc | video => exact .none .refl

/-- A login with SSO. If a session is created, then the session of SSO is removed without being
recorded. -/
theorem made_newSessionBySso (ctx : Ctx) (ssoToken : String) (t : SessionType)
    (mode : OccupationMode)
    (hφ : ∀ x, s.service.ssoSource p.toPlatform w ctx ssoToken = .ok x →
      (exec (newSessionFromSso p w ctx x ssoToken t mode) s).1.isOk = true →
      φ ⟨false, p.generateSessionId ssoToken, .sessionLogout⟩) :
  Made φ (p.generateSessionId w.token) s.ledger
    (Raise.after (newSessionBySso p w ctx ssoToken t mode) s)
  := by
  unfold newSessionBySso Raise.after
  rw [exec_bind_ok (exec_get s)]
  cases hx : s.service.ssoSource p.toPlatform w ctx ssoToken with
  | error e => exact .none .refl
  | ok x =>
    rw [exec_bind_ok (exec_outcome_service x s)]
    have hmade := made_newSessionFromSso (φ := φ) (p := p) (w := w) (s := s) ctx x ssoToken t mode
    unfold Raise.after at hmade
    rcases hexec : exec (newSessionFromSso p w ctx x ssoToken t mode) s with ⟨e | y, s₁⟩
    · rw [hexec] at hmade
      rw [exec_bind_error hexec]
      exact hmade
    · rw [hexec] at hmade
      rw [exec_bind_ok hexec]
      rcases delete_cases p (.ordinary .sso) (p.generateSessionId ssoToken) .sessionLogout s₁
        with ⟨e, hdelete⟩ | ⟨s₂, hdelete, htakes, _⟩
      · rw [exec_bind_error hdelete]
        exact hmade
      · rw [exec_bind_ok hdelete]
        refine Ledger.Creates.tail hmade (.single (.unlogged htakes ?_))
        intro d hd
        obtain rfl := List.mem_singleton.mp hd
        exact hφ x hx (by rw [hexec]; rfl)

theorem made_enter (sh : {sh : Shelf // sh ≠ .cli}) (x : Session) :
  Made φ (p.generateSessionId w.token) s.ledger (Raise.after (enter p w sh x) s)
  := by
  have hledger : (Raise.after (enter p w sh x) s).ledger
      = s.ledger.enter (p.generateSessionId w.token) := by
    apply ledger_setOne sh.1 sh.2
    · exact ⟨inner_setSessions _ _ _, removed_setSessions _ _ _, logoutCollection_setSessions _ _ _⟩
    · change ((s.setSessions sh.1 _).sessions sh.1).map _ = _
      rw [sessions_setSessions, List.map_append]
      rfl
    · intro sh' hsh'
      change ((s.setSessions sh.1 _).sessions sh').map _ = _
      rw [sessions_setSessions_ne _ _ hsh']
      rfl
  unfold Made
  rw [hledger]
  exact .one .refl .refl

/-- A request for an inner session creates one if there is none of its type. -/
theorem innerIds_createInnerSession (rolePrivilege : ℕ → Option (List PrivilegeType))
    (r : Redfish.InnerRequest) (t : Redfish.InnerType) (sessionId : String)
    (c : Redfish.InnerCollection) :
  let c' := (Raise.after (Redfish.createInnerSession rolePrivilege r t sessionId) ⟨[], c, 0⟩).inner
  (innerIds c' : Multiset String) = innerIds c ∨
    (innerIds c' : Multiset String) = sessionId ::ₘ (innerIds c : Multiset String)
  := by
  intro c'
  have hc' : c' = (Raise.after (Redfish.createInnerSession rolePrivilege r t sessionId)
    ⟨[], c, 0⟩).inner := rfl
  unfold Redfish.createInnerSession Raise.after at hc'
  rw [exec_bind_ok (exec_get _)] at hc'
  cases hget : c.get t with
  | some y =>
    left
    simp only [hget] at hc'
    rw [hc']
    cases rolePrivilege r.roleId with
    | none => exact innerIds_replace hget rfl
    | some privilege =>
      let x : Redfish.Session := { y with authType := r.authType, roleId := r.roleId }
      have hx : (innerIds (c.put t (some x)) : Multiset String) = innerIds c :=
        innerIds_replace hget rfl
      have hput := Redfish.InnerCollection.get_put c t (some x)
      have hy : ({ x with privilege := privilege, createdTime := r.now } : Redfish.Session).sessionId
          = x.sessionId := rfl
      exact (innerIds_replace hput hy).trans hx
  | none =>
    simp only [hget] at hc'
    rw [hc']
    cases rolePrivilege r.roleId with
    | none => exact Or.inl rfl
    | some privilege => exact Or.inr (innerIds_insert hget _)

theorem ledger_inner {c : Redfish.InnerCollection}
    (h : (innerIds c : Multiset String) = innerIds s.inner) :
  ({ s with inner := c } : Registry).ledger = s.ledger
  := by
  apply Ledger.ext
  · exact congrArg (_ + ·) h
  · rfl
  · rfl
  · rfl

theorem ledger_inner_enter {c : Redfish.InnerCollection}
    (h : (innerIds c : Multiset String) = i ::ₘ (innerIds s.inner : Multiset String)) :
  ({ s with inner := c } : Registry).ledger = s.ledger.enter i
  := by
  apply Ledger.ext
  · exact (congrArg (_ + ·) h).trans (Multiset.add_cons _ _ _)
  · rfl
  · rfl
  · rfl

theorem made_createInnerSession (r : Redfish.InnerRequest) (t : Redfish.InnerType) :
  Made φ (p.generateSessionId w.token) s.ledger (Raise.after (createInnerSession p w r t) s)
  := by
  unfold createInnerSession Raise.after
  rw [exec_onInner]
  unfold Made
  rcases innerIds_createInnerSession w.roles r t (p.generateSessionId w.token) s.inner
    with hids | hids
  · rw [ledger_inner hids]
    exact .none .refl
  · rw [ledger_inner_enter hids]
    exact .one .refl .refl

end Requests

end Registry

end Sessions

end BmcAccount
