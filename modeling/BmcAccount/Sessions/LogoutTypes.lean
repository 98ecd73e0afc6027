import BmcAccount.Sessions.RegistryRuns

/-!
# Why a session is gone

The registry tells the type of a removal for as long as fewer than 32 other removals have followed
it. This rests on two things that hold in every state of a run, if no identifier is generated
twice: the identifiers of sessions that are not of the command line are all different from each
other and from those of processes, and the log has the last of the removals that are recorded.

What `delete_all_session` removes is never recorded, and neither is what is removed for SSO. In a
run without these removals the type of every other one is remembered (`remembers_of_run`).
-/

namespace BmcAccount

namespace Sessions

open Raise

namespace Registry

variable {Dn : Type} {p : RegistryPlatform} {s : Registry} {c : Call Dn}

/-! ## What is asked of a call -/

/-- An identifier that is generated has not been used. -/
def Fresh (p : RegistryPlatform) (s : Registry) (c : Call Dn) : Prop :=
  c.op.generates = true → p.generateSessionId c.world.token ∉ s.ledger.used

instance (p : RegistryPlatform) (s : Registry) (c : Call Dn) : Decidable (Fresh p s c) :=
  inferInstanceAs (Decidable (_ → _))

/-- The call removes only sessions of the command line without recording them. A login with SSO
has room for another session, no session is created from one of SSO, and what
`delete_all_session` removes is of the command line. -/
def Spares (p : RegistryPlatform) (s : Registry) (c : Call Dn) : Prop :=
  match c.op with
  | .newSession ctx username password t domain ip extra =>
    t = .sso → ∀ r, admission c.world s.service ctx username password t domain ip extra = .ok r →
      (s.service.relogin .sso username).havaFreeSession .sso = true
        ∨ (s.service.relogin .sso username).sessions .sso = []
  | .newSessionBySso ctx ssoToken t mode =>
    ∀ x, s.service.ssoSource p.toPlatform c.world ctx ssoToken = .ok x →
      (exec (newSessionFromSso p c.world ctx x ssoToken t mode) s).1.isOk = false
  | .deleteAllSession ctx _ k ipType =>
    ∀ sh, sh ≠ .cli → ∀ x ∈ s.sessions sh, isCleared p c.world ctx k ipType sh x = false
  | _ => True

theorem Spares.allows (h : Spares p s c) :
  Allows (fun d => d.isCli = true) p s c
  := by
  obtain ⟨world, processes, op⟩ := c
  cases op with
  | newSession ctx username password t domain ip extra =>
    intro ht r hr hfull x hx
    rcases h ht r hr with hfree | hnone
    · rw [hfree] at hfull
      cases hfull
    · rw [hnone] at hx
      cases hx
  | newSessionBySso ctx ssoToken t mode =>
    intro x hx hok
    rw [h x hx] at hok
    cases hok
  | deleteAllSession ctx t k ipType =>
    intro sh x hx hcleared
    by_contra hcli
    rw [h sh (by simpa using hcli) x hx] at hcleared
    cases hcleared
  | _ => trivial

/-! ## What holds in every state -/

/-- The identifiers are different, and the log is that of the removals that are recorded. -/
structure Sound (s : Registry) : Prop where
  named : s.ledger.Named
  nodup : s.ledger.used.Nodup
  logged : s.ledger.Logged

theorem sound_start (config : Service) :
  Sound (start config)
  where
    named := named_start config
    nodup := Multiset.nodup_zero
    logged := ⟨[], RecentLog.covers_nil _, rfl⟩

theorem Sound.after (hs : Sound s) (hfresh : Fresh p s c) (hspares : Spares p s c) :
  Sound (s.after p c)
  where
    named := named_after hs.named c
    nodup := by
      by_cases hop : c.op.generates = true
      · have hcreates := creates_after (p := p) (fun _ h => h) hspares.allows hs.named
        exact hcreates.nodup_used hs.nodup (hfresh hop)
      · have hmoves := moves_after (p := p) (fun _ h => h) hspares.allows hs.named
          (Bool.eq_false_iff.mpr hop)
        rw [hmoves.used_eq]
        exact hs.nodup
    logged := hs.logged.creates (creates_after (fun _ h => h) hspares.allows hs.named)

/-! ## What is remembered -/

/-- The type is told of every removal of a session that is not of the command line, if fewer than
32 removals have followed. -/
def Remembers (p : RegistryPlatform) (s : Registry) : Prop :=
  ∀ pre d post, s.removed = pre ++ d :: post → d.isCli = false → post.length < maxLogoutSession →
    s.getSessionLogoutType p d.sessionId = .ok d.logoutType

/-- The log has the removal. -/
theorem Sound.find_logoutCollection (hs : Sound s) {pre post : List Removal} {d : Removal}
    (hremoved : s.removed = pre ++ d :: post) (hd : d.isCli = false)
    (hpost : post.length < maxLogoutSession) :
  s.logoutCollection.find? (fun e => e.1 = d.sessionId) = some d.entry
  := Ledger.remembers hs.named hs.nodup hs.logged hremoved hd hpost

theorem Sound.remembers (hs : Sound s) (p : RegistryPlatform) :
  Remembers p s
  := by
  intro pre d post hremoved hd hpost
  unfold getSessionLogoutType
  rw [hs.find_logoutCollection hremoved hd hpost]
  rfl

/-- A request with the session gets the error of the type. -/
theorem Sound.checkSessionError_eq (hs : Sound s) {pre post : List Removal} {d : Removal}
    (hremoved : s.removed = pre ++ d :: post) (hd : d.isCli = false)
    (hpost : post.length < maxLogoutSession) :
  s.checkSessionError d.sessionId = errMap d.logoutType
  := by
  unfold checkSessionError
  rw [hs.find_logoutCollection hremoved hd hpost]
  rfl

/-- In a run in which no identifier is generated twice, and that records what it removes, the types
of the last removals are remembered. -/
theorem remembers_of_run (p : RegistryPlatform) (config : Service) (l : List (Call Dn))
    (hfresh : Run.Along (after p) (Fresh p) (start config) l)
    (hspares : Run.Along (after p) (Spares p) (start config) l) :
  ∀ s ∈ Run.states (after p) (start config) l, Remembers p s
  := by
  have hstep (s : Registry) (c : Call Dn) (hs : Sound s) (hc : Fresh p s c ∧ Spares p s c) :
      Sound (s.after p c) := hs.after hc.1 hc.2
  intro s hs
  have hsound := Run.invariant (I := Sound) hstep (sound_start config) (hfresh.and hspares) s hs
  exact hsound.remembers p

/-! ### Removals of a login -/

/-- A login of a user, with an identifier that is made from the token. -/
def loginOf (token username : String) (t : SessionType) : Call Unit where
  world := plainWorld token
  processes := oneOnline "root" ""
  op := .newSession plainCtx username "secret" t "" "192.168.1.2" ⟨none, none⟩

/-- A session is removed by its identifier. -/
def kickout : List (Call Unit) :=
  [loginOf "a" "user" .gui,
    ⟨plainWorld "", oneOnline "root" "", .deleteSession "sa" .sessionKickout⟩]

/-- The sessions of SSO are removed. -/
def cleared : List (Call Unit) :=
  [loginOf "a" "user" .sso, ⟨plainWorld "", oneOnline "root" "",
    .deleteAllSession plainCtx .bmcConfigChange (some (.ordinary .sso)) .all⟩]

/-- Another user logs in to SSO. -/
def evicted : List (Call Unit) := [loginOf "a" "user" .sso, loginOf "b" "other" .sso]

/-- The session of SSO is used for a login to the web. -/
def consumed : List (Call Unit) :=
  [⟨plainWorld "a", oneOnline "root" "",
      .enter ⟨.ordinary .sso, nofun⟩ (ClearKvm.kvmSession "a" 1)⟩,
    ⟨{ plainWorld "b" with
        accounts := [⟨⟨"user", 2, "", 0, [4], none, none⟩, false, .promptPasswordReset⟩] },
      oneOnline "root" "", .newSessionBySso plainCtx "a" .gui .shared⟩]

/-- There can be one session of each type. -/
def smallService : Service := { plainService with sessionMaxCount := fun _ => 1 }

theorem fresh_kickout :
  Run.Along (after plainRegistryPlatform) (Fresh plainRegistryPlatform) (start smallService) kickout
  := ⟨fun _ => Multiset.notMem_zero _, nofun, trivial⟩

theorem spares_kickout :
  Run.Along (after plainRegistryPlatform) (Spares plainRegistryPlatform) (start smallService)
    kickout
  := ⟨nofun, trivial, trivial⟩

theorem remembers_kickout :
  Run.Along (after plainRegistryPlatform) (Fresh plainRegistryPlatform) (start smallService) kickout
    ∧ Run.Along (after plainRegistryPlatform) (Spares plainRegistryPlatform) (start smallService)
      kickout
    ∧ ∀ s ∈ Run.states (after plainRegistryPlatform) (start smallService) kickout,
      Remembers plainRegistryPlatform s
  := ⟨fresh_kickout, spares_kickout,
    remembers_of_run plainRegistryPlatform smallService kickout fresh_kickout spares_kickout⟩

/-- The run does not generate an identifier twice, but a type is forgotten at its end. -/
def Forgets (l : List (Call Unit)) : Prop :=
  Run.Along (after plainRegistryPlatform) (Fresh plainRegistryPlatform) (start smallService) l
    ∧ ¬ ∀ s ∈ Run.states (after plainRegistryPlatform) (start smallService) l,
      Remembers plainRegistryPlatform s

theorem forgets_of {l : List (Call Unit)} {d : Removal}
    (hfresh : Run.Along (after plainRegistryPlatform) (Fresh plainRegistryPlatform)
      (start smallService) l)
    (hremoved : (l.foldl (after plainRegistryPlatform) (start smallService)).removed = [d])
    (hd : d.isCli = false)
    (hlost : (l.foldl (after plainRegistryPlatform) (start smallService)).logoutCollection = []) :
  Forgets l
  := by
  refine ⟨hfresh, fun h => ?_⟩
  have htold := h _ (Run.foldl_mem_states _ _ l) [] d [] hremoved hd (by decide)
  unfold getSessionLogoutType at htold
  rw [hlost] at htold
  dsimp only [List.find?_nil] at htold
  split at htold <;> cases htold

/-- None of the three removals is recorded. -/
theorem forgets_three :
  Forgets cleared ∧ Forgets evicted ∧ Forgets consumed
  := by
  refine ⟨?_, ?_, ?_⟩
  · exact forgets_of (d := ⟨false, "sa", .bmcConfigChange⟩) (by decide +kernel) (by decide +kernel)
      rfl (by decide +kernel)
  · exact forgets_of (d := ⟨false, "sa", .sessionRelogin⟩) (by decide +kernel) (by decide +kernel)
      rfl (by decide +kernel)
  · exact forgets_of (d := ⟨false, "sa", .sessionLogout⟩) (by decide +kernel) (by decide +kernel)
      rfl (by decide +kernel)

end Registry

end Sessions

end BmcAccount
