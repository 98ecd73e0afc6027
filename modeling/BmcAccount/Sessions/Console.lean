import BmcAccount.Sessions.Effects

/-!
# Exclusive console sessions

A session of KVM or VNC is shared or exclusive. Whether another one may be created beside it is
decided by what is recorded of the modes: for VNC the mode of the latest session, which is that of
all of them; for KVM the mode of the latest session of each system, under the identifier of the
system as it came in the request; and for VNC beside KVM the mode of the latest session of KVM,
of whatever system.

So an exclusive session of KVM is not alone when its system is also known under another
identifier, when a shared session of another system hides it from VNC, or when a key with the
exclusive mode is used in a request for a shared session. `run_exclusive_iff` says that there is
nothing else.
-/

namespace BmcAccount

namespace Sessions

open Raise

/-! ## Consoles -/

/-- The sessions of KVM and VNC, and what is recorded of their modes. -/
@[ext]
structure Consoles where
  kvm : List Session
  vnc : List Session
  vncMode : OccupationMode
  kvmSessionMode : SystemId → Option OccupationMode

/-- The consoles of the service. -/
def Service.consoles (s : Service) : Consoles where
  kvm := s.sessions .kvm
  vnc := s.sessions .vnc
  vncMode := s.sessionMode .vnc
  kvmSessionMode := s.kvmSessionMode

/-- The two sessions are of one system. -/
def Platform.sameSystem (p : Platform) (x y : Session) : Bool :=
  x.systemId.bind p.number = y.systemId.bind p.number

/-- An exclusive session of KVM is the only one of its system, and there is none of VNC; an
exclusive session of VNC is the only one, and there is none of KVM. -/
def Consoles.Exclusive (p : Platform) (c : Consoles) : Prop :=
  (∀ x ∈ c.kvm, x.sessionMode = some .exclusive →
    c.kvm.filter (p.sameSystem x) = [x] ∧ c.vnc = [])
  ∧ ∀ x ∈ c.vnc, x.sessionMode = some .exclusive → c.vnc = [x] ∧ c.kvm = []

/-- The modes of the sessions are those that are recorded. -/
structure Consoles.Recorded (c : Consoles) : Prop where
  kvm : ∀ x ∈ c.kvm, ∃ id mode, x.systemId = some id ∧ x.sessionMode = some mode
    ∧ c.kvmSessionMode id = some mode
  vnc : ∀ x ∈ c.vnc, x.sessionMode = some c.vncMode

/-- A session of KVM is added. -/
def Consoles.addKvm (c : Consoles) (x : Session) (id : SystemId) : Consoles :=
  { c with
    kvm := c.kvm ++ [x]
    kvmSessionMode := Function.update c.kvmSessionMode id x.sessionMode }

/-- A session of VNC is added. -/
def Consoles.addVnc (c : Consoles) (x : Session) (mode : OccupationMode) : Consoles :=
  { c with vnc := c.vnc ++ [x], vncMode := mode }

/-- The number of the sessions under an identifier. -/
def Consoles.count (c : Consoles) (id : SystemId) : ℕ :=
  c.kvm.countP fun x => x.systemId = some id

/-- `session_mode_validator` of KVM lets a session be created. -/
def Consoles.KvmValid (c : Consoles) (mode : OccupationMode) (id : SystemId) : Prop :=
  c.kvmSessionMode id = some .exclusive ∨ mode = .exclusive → c.count id = 0

/-- `session_mode_validator` of VNC lets a session be created. -/
def Consoles.VncValid (c : Consoles) (mode : OccupationMode) : Prop :=
  c.vncMode = .exclusive ∨ mode = .exclusive → c.vnc = []

/-- A session of KVM would be beside one of its system under another identifier with one of the two
exclusive, or it would be exclusive with one of VNC there. -/
def Consoles.SparesKvm (p : Platform) (c : Consoles) (mode : OccupationMode) (id : SystemId) :
    Prop :=
  (∀ x ∈ c.kvm, x.systemId ≠ some id → x.systemId.bind p.number = p.number id →
    x.sessionMode ≠ some .exclusive ∧ mode ≠ .exclusive)
  ∧ (mode = .exclusive → c.vnc = [])

/-- A session of VNC would be beside an exclusive one of KVM. -/
def Consoles.SparesVnc (c : Consoles) : Prop :=
  ∀ x ∈ c.kvm, x.sessionMode ≠ some .exclusive

section Consoles

variable {p : Platform} {c : Consoles}

theorem Consoles.count_eq_zero {id : SystemId} :
  c.count id = 0 ↔ ∀ x ∈ c.kvm, x.systemId ≠ some id
  := by
  unfold Consoles.count
  rw [List.countP_eq_zero]
  simp

theorem Consoles.Recorded.addKvm (h : c.Recorded) {x : Session} {id : SystemId}
    {mode : OccupationMode} (hmode : x.sessionMode = some mode) (hid : x.systemId = some id)
    (hvalid : c.KvmValid mode id) :
  (c.addKvm x id).Recorded
  where
    vnc := h.vnc
    kvm y hy := by
      obtain hkvm | hy := List.mem_append.mp hy
      · obtain ⟨id', mode', hid', hmode', hrec⟩ := h.kvm y hkvm
        refine ⟨id', mode', hid', hmode', ?_⟩
        by_cases hsame : id' = id
        · subst hsame
          have hcount : c.count id' ≠ 0 := fun h0 => count_eq_zero.mp h0 y hkvm hid'
          have hno := mt hvalid hcount
          rw [hrec] at hno
          have hshared : mode' = mode := by
            cases mode' <;> cases mode <;> simp at hno ⊢
          simp [Consoles.addKvm, hmode, hshared]
        · simpa [Consoles.addKvm, hsame] using hrec
      · obtain rfl := List.mem_singleton.mp hy
        exact ⟨id, mode, hid, hmode, by simp [Consoles.addKvm, hmode]⟩

/-- A change of the mode of VNC that `session_mode_validator` makes. -/
theorem Consoles.Recorded.setVncMode (h : c.Recorded) {mode : OccupationMode}
    (hvalid : c.VncValid mode) :
  Consoles.Recorded { c with vncMode := mode }
  where
    kvm := h.kvm
    vnc y hy := by
      have hno : ¬ (c.vncMode = .exclusive ∨ mode = .exclusive) :=
        fun hex => List.ne_nil_of_mem hy (hvalid hex)
      rw [h.vnc y hy]
      cases hv : c.vncMode <;> cases mode <;> simp [hv] at hno ⊢

theorem Consoles.Recorded.addVnc (h : c.Recorded) {x : Session} {mode : OccupationMode}
    (hmode : x.sessionMode = some mode) (hvalid : c.VncValid mode) :
  (c.addVnc x mode).Recorded
  where
    kvm := h.kvm
    vnc y hy := by
      obtain hold | hnew := List.mem_append.mp hy
      · exact (h.setVncMode hvalid).vnc y hold
      · obtain rfl := List.mem_singleton.mp hnew
        exact hmode

/-- Beside the sessions of KVM that are there, one that `session_mode_validator` lets through is
alone as it has to be just if the request is spared. -/
theorem Consoles.Exclusive.addKvm_iff (h : c.Exclusive p) (hrec : c.Recorded) {x : Session}
    {id : SystemId} {mode : OccupationMode} (hmode : x.sessionMode = some mode)
    (hid : x.systemId = some id) (hvalid : c.KvmValid mode id)
    (hvnc : c.vncMode = .exclusive → c.vnc = []) :
  (c.addKvm x id).Exclusive p ↔ c.SparesKvm p mode id
  := by
  have hother (y : Session) (hy : y ∈ c.kvm) (hex : y.sessionMode = some .exclusive) :
      y.systemId ≠ some id := by
    obtain ⟨id', mode', hid', hmode', hrec'⟩ := hrec.kvm y hy
    intro hsame
    obtain rfl : id' = id := Option.some_inj.mp (hid'.symm.trans hsame)
    obtain rfl : mode' = .exclusive := Option.some_inj.mp (hmode'.symm.trans hex)
    exact count_eq_zero.mp (hvalid (.inl hrec')) y hy hsame
  have hfilter (y : Session) (l : List Session) : (l ++ [x]).filter (p.sameSystem y)
      = l.filter (p.sameSystem y) ++ if p.sameSystem y x then [x] else [] := by
    rw [List.filter_append, List.filter_singleton]
    cases p.sameSystem y x <;> rfl
  have hsame (y : Session) : p.sameSystem y x = true ↔ y.systemId.bind p.number = p.number id := by
    simp [Platform.sameSystem, hid]
  have hrefl : p.sameSystem x x = true := by
    simp [Platform.sameSystem]
  constructor
  · rintro ⟨hkvm, -⟩
    refine ⟨fun y hy hne hnumber => ⟨fun hex => ?_, fun hex => ?_⟩, fun hex => ?_⟩
    · have halone := (hkvm y (List.mem_append_left _ hy) hex).1
      have hold := (h.1 y hy hex).1
      change (c.kvm ++ [x]).filter _ = _ at halone
      rw [hfilter, hold, if_pos ((hsame y).mpr hnumber)] at halone
      simp at halone
    · have halone := (hkvm x (List.mem_append_right _ (List.mem_singleton_self x))
        (by rw [hmode, hex])).1
      change (c.kvm ++ [x]).filter _ = _ at halone
      rw [hfilter, if_pos hrefl] at halone
      have hnil : c.kvm.filter (p.sameSystem x) = [] :=
        List.append_cancel_right (halone.trans (List.nil_append _).symm)
      have hno := List.filter_eq_nil_iff.mp hnil y hy
      simp [Platform.sameSystem, hid, hnumber] at hno
    · exact (hkvm x (List.mem_append_right _ (List.mem_singleton_self x)) (by rw [hmode, hex])).2
  · rintro ⟨hspares, hempty⟩
    refine ⟨fun y hy hex => ?_, fun y hy hex => ?_⟩
    · change (c.kvm ++ [x]).filter _ = _ ∧ c.vnc = []
      rw [hfilter]
      obtain hold | hnew := List.mem_append.mp hy
      · obtain ⟨halone, hnone⟩ := h.1 y hold hex
        have hno : ¬ p.sameSystem y x = true := fun hs =>
          (hspares y hold (hother y hold hex) ((hsame y).mp hs)).1 hex
        rw [halone, if_neg hno, List.append_nil]
        exact ⟨rfl, hnone⟩
      · obtain rfl := List.mem_singleton.mp hnew
        have hexmode : mode = .exclusive := Option.some_inj.mp (hmode.symm.trans hex)
        rw [if_pos hrefl]
        refine ⟨?_, hempty hexmode⟩
        have hnil : c.kvm.filter (p.sameSystem y) = [] := by
          rw [List.filter_eq_nil_iff]
          intro z hz hs
          have hne := count_eq_zero.mp (hvalid (.inr hexmode)) z hz
          apply (hspares z hz hne ?_).2 hexmode
          simpa [Platform.sameSystem, hid, eq_comm] using hs
        rw [hnil, List.nil_append]
    · have hexmode : c.vncMode = .exclusive :=
        Option.some_inj.mp ((hrec.vnc y hy).symm.trans hex)
      exact absurd hy (by simp [Consoles.addKvm, hvnc hexmode])

theorem Consoles.Recorded.addVnc_iff (hrec : c.Recorded) {x : Session}
    {mode : OccupationMode} (hmode : x.sessionMode = some mode) (hvalid : c.VncValid mode)
    (hkvm : mode = .exclusive → c.kvm = []) :
  (c.addVnc x mode).Exclusive p ↔ c.SparesVnc
  := by
  constructor
  · intro hafter y hy hex
    have hnone := (hafter.1 y hy hex).2
    simp [Consoles.addVnc] at hnone
  · intro hspares
    refine ⟨fun y hy hex => absurd hex (hspares y hy), fun y hy hex => ?_⟩
    change c.vnc ++ [x] = [y] ∧ c.kvm = []
    obtain hold | hnew := List.mem_append.mp hy
    · have hexmode : c.vncMode = .exclusive :=
        Option.some_inj.mp ((hrec.vnc y hold).symm.trans hex)
      exact absurd hold (by simp [hvalid (.inl hexmode)])
    · obtain rfl := List.mem_singleton.mp hnew
      have hexmode : mode = .exclusive := Option.some_inj.mp (hmode.symm.trans hex)
      rw [hvalid (.inr hexmode), hkvm hexmode]
      exact ⟨rfl, rfl⟩

end Consoles

/-! ## Deletions -/

section Deletes

variable {p : Platform} {s s' : Service}

theorem filter_eq_singleton {α : Type} {l : List α} {q : α → Bool} {x : α} (hx : x ∈ l)
    (hq : q x = true) (hone : l.countP q ≤ 1) :
  l.filter q = [x]
  := by
  have hmem : x ∈ l.filter q := List.mem_filter.mpr ⟨hx, hq⟩
  rw [List.countP_eq_length_filter] at hone
  obtain ⟨y, hy⟩ := List.length_eq_one_iff.mp
    (le_antisymm hone (List.length_pos_of_mem hmem))
  rw [hy, List.mem_singleton] at hmem
  rw [hy, hmem]

/-- A session that is still there was there before. -/
theorem Service.Deletes.mem (h : s.Deletes s') {t : SessionType} {x : Session}
    (hx : x ∈ s'.sessions t) :
  ∃ y ∈ s.sessions t, y.sessionMode = x.sessionMode ∧ y.systemId = x.systemId
  := by
  obtain ⟨y, hy, hcore⟩ := List.mem_map.mp ((h.sessions t).mem (List.mem_map_of_mem hx))
  have hmode : y.core.sessionMode = x.core.sessionMode := by rw [hcore]
  have hid : y.core.systemId = x.core.systemId := by rw [hcore]
  exact ⟨y, hy, hmode, hid⟩

theorem Service.Deletes.countP_le (h : s.Deletes s') (t : SessionType) {q : Session → Bool}
    (hq : ∀ x, q x.core = q x) :
  (s'.sessions t).countP q ≤ (s.sessions t).countP q
  := by
  have hle : ((s'.sessions t).map Session.core).countP q ≤ _ := (h.sessions t).countP_le
  have hcore : q ∘ Session.core = q := funext hq
  rwa [List.countP_map, List.countP_map, hcore] at hle

theorem Service.Deletes.nil (h : s.Deletes s') {t : SessionType} (hnil : s.sessions t = []) :
  s'.sessions t = []
  := by
  have hsub := h.sessions t
  rw [hnil] at hsub
  exact List.map_eq_nil_iff.mp (List.sublist_nil.mp hsub)

theorem Consoles.Exclusive.deletes (h : s.consoles.Exclusive p) (hdel : s.Deletes s') :
  s'.consoles.Exclusive p
  := by
  constructor
  · intro x hx hex
    obtain ⟨y, hy, hmode, hid⟩ := hdel.mem hx
    obtain ⟨halone, hnone⟩ := h.1 y hy (hmode.trans hex)
    refine ⟨filter_eq_singleton hx (by simp [Platform.sameSystem]) ?_, hdel.nil hnone⟩
    have hsame : p.sameSystem x = p.sameSystem y := by
      funext z
      simp [Platform.sameSystem, hid]
    rw [hsame]
    apply (hdel.countP_le .kvm fun z => rfl).trans
    rw [List.countP_eq_length_filter]
    exact (congrArg List.length halone).le
  · intro x hx hex
    obtain ⟨y, hy, hmode, -⟩ := hdel.mem hx
    obtain ⟨halone, hnone⟩ := h.2 y hy (hmode.trans hex)
    refine ⟨?_, hdel.nil hnone⟩
    have hlen := (hdel.sessions .vnc).length_le
    rw [List.length_map, List.length_map] at hlen
    have hone : (s.sessions .vnc).length = 1 := congrArg List.length halone
    rw [hone] at hlen
    obtain ⟨z, hz⟩ := List.length_eq_one_iff.mp
      (le_antisymm hlen (List.length_pos_of_mem hx))
    have hxz : x ∈ [z] := hz ▸ hx
    rw [List.mem_singleton.mp hxz]
    exact hz

theorem Consoles.Recorded.deletes (h : s.consoles.Recorded) (hdel : s.Deletes s') :
  s'.consoles.Recorded
  where
    kvm x hx := by
      obtain ⟨y, hy, hmode, hid⟩ := hdel.mem hx
      rw [← hmode, ← hid]
      change ∃ id mode, _ ∧ _ ∧ s'.kvmSessionMode id = some mode
      rw [hdel.kvmSessionMode]
      exact h.kvm y hy
    vnc x hx := by
      obtain ⟨y, hy, hmode, -⟩ := hdel.mem hx
      rw [← hmode]
      change _ = some (s'.sessionMode .vnc)
      rw [hdel.sessionMode]
      exact h.vnc y hy

end Deletes

/-! ## Creations of KVM -/

/-- The request that what a KVM session is created from gives. -/
def ConsoleSource.request {Dn : Type} (w : World Dn) (ctx : Ctx) (mode : OccupationMode)
    (systemId : SystemId) : ConsoleSource → Except ServiceErr KvmRequest
  | .session x => x.consoleRequest mode systemId
  | .key k => keyRequest w ctx k systemId

/-- The request for a session of KVM that the tests of a call let through. -/
def Service.kvmRequest {Dn : Type} (p : Platform) (s : Service) (c : Call Dn) :
    Option KvmRequest :=
  match c.op with
  | .newSession ctx username password .kvm domain ip extra =>
    if extra.isValid then
      (c.world.login.authenticate ctx.clientAddr ctx.interface username password .kvm ip
        domain).toOption.bind fun r =>
          (s.loginRequest p c.world ctx r.1 r.2 ip extra).toOption
    else none
  | .newRemoteConsoleSession ctx token .kvm mode =>
    (checkSystemId p c.world ctx).toOption.bind fun systemId =>
      (s.consoleSource p c.world token mode).toOption.bind fun source =>
        (source.request c.world ctx mode systemId).toOption
  | .newSessionBySso ctx ssoToken .kvm mode =>
    (s.ssoSource p c.world ctx ssoToken).toOption.bind fun x =>
      (s.ssoRequest p c.world ctx x mode).toOption
  | _ => none

/-- `create` of KVM lets a request through. -/
structure Service.LetsKvm {Dn : Type} (w : World Dn) (s : Service) (r : KvmRequest) : Prop where
  free : s.consoles.count r.systemId < s.sessionMaxCount .kvm
  valid : s.consoles.KvmValid r.mode r.systemId
  known : w.knowsPrivileges r.account = true

/-- From `s` the program adds a session for the request, if it is let through, and else it changes
nothing on the consoles. -/
def CreatesKvm {α Dn : Type} (w : World Dn) (m : ServiceM α) (s : Service) (r : KvmRequest) : Prop :=
  (s.LetsKvm w r ∧ ∃ a s' x, exec m s = (.ok a, s') ∧ x.sessionMode = some r.mode
    ∧ x.systemId = some r.systemId ∧ s'.consoles = s.consoles.addKvm x r.systemId)
  ∨ (¬ s.LetsKvm w r ∧ ∃ e s', exec m s = (.error e, s') ∧ s'.consoles = s.consoles)

/-- What follows a creation may change the new session, but not its mode and its system. -/
theorem CreatesKvm.bind {α β Dn : Type} {w : World Dn} {m : ServiceM α} {f : α → ServiceM β}
    {s : Service} {r : KvmRequest} (h : CreatesKvm w m s r)
    (hf : ∀ a s' x, x.sessionMode = some r.mode → x.systemId = some r.systemId →
      s'.consoles = s.consoles.addKvm x r.systemId →
      ∃ b s'' y, exec (f a) s' = (.ok b, s'') ∧ y.sessionMode = some r.mode
        ∧ y.systemId = some r.systemId ∧ s''.consoles = s.consoles.addKvm y r.systemId) :
  CreatesKvm w (m >>= f) s r
  := by
  obtain ⟨hlets, a, s', x, hexec, hmode, hid, hadd⟩ | ⟨hlets, e, s', hexec, hsame⟩ := h
  · obtain ⟨b, s'', y, hnext, hy⟩ := hf a s' x hmode hid hadd
    exact .inl ⟨hlets, b, s'', y, by rw [exec_bind_ok hexec, hnext], hy⟩
  · exact .inr ⟨hlets, e, s', by rw [exec_bind_error hexec], hsame⟩

theorem CreatesKvm.get {α Dn : Type} {w : World Dn} {f : Service → ServiceM α} {s : Service}
    {r : KvmRequest} (h : CreatesKvm w (f s) s r) :
  CreatesKvm w (MonadState.get >>= f) s r
  := h

section Kvm

variable {Dn : Type} {p : Platform} {w : World Dn} {s : Service}

theorem isSome_newSessionObject (account : AccountInfo) (authType : AuthType) (ip : String)
    (browserType : Option ℤ) (ssoToken : Option String) :
  (newSessionObject w p account authType ip browserType ssoToken).isSome
    = w.knowsPrivileges account
  := by
  have hname := username_newSessionObject p w account authType ip browserType ssoToken
  cases hx : newSessionObject w p account authType ip browserType ssoToken with
  | none =>
    rw [hx] at hname
    cases hknown : w.knowsPrivileges account with
    | false => rfl
    | true => simp [hknown] at hname
  | some x =>
    rw [hx] at hname
    cases hknown : w.knowsPrivileges account with
    | true => rfl
    | false => simp [hknown] at hname

theorem kvmGuard_eq_false {mode : OccupationMode} {id : SystemId} :
  ((s.kvmSessionMode id = some .exclusive || mode = .exclusive)
      && s.getSessionNumBySystemId id ≠ 0) = false
    ↔ s.consoles.KvmValid mode id
  := by
  have hcount : s.getSessionNumBySystemId id = s.consoles.count id := rfl
  have hmode : s.kvmSessionMode id = s.consoles.kvmSessionMode id := rfl
  rw [hcount, hmode]
  unfold Consoles.KvmValid
  simp [imp_iff_not_or]

theorem exec_kvmSessionModeValidator {mode : OccupationMode} {id : SystemId}
    (h : s.consoles.KvmValid mode id) :
  exec (kvmSessionModeValidator mode id) s = (.ok (), s.setSessionMode .kvm mode)
  := by
  unfold kvmSessionModeValidator
  rw [exec_bind_ok (exec_get s), kvmGuard_eq_false.mpr h, exec_bind_ok (exec_refuse_false _ s)]
  rfl

theorem exec_kvmSessionModeValidator_of_not {mode : OccupationMode} {id : SystemId}
    (h : ¬ s.consoles.KvmValid mode id) :
  exec (kvmSessionModeValidator mode id) s = (.error (.sessionModeIsExclusive .kvm), s)
  := by
  unfold kvmSessionModeValidator
  rw [exec_bind_ok (exec_get s), eq_true_of_ne_false (mt kvmGuard_eq_false.mp h),
    exec_bind_error (exec_refuse_true _ s)]

theorem createsKvm_kvmCreate (r : KvmRequest) :
  CreatesKvm w (kvmCreate p w r.account r.authType r.ip r.mode r.systemId) s r
  := by
  have hcount : s.getSessionNumBySystemId r.systemId = s.consoles.count r.systemId := rfl
  unfold kvmCreate
  apply CreatesKvm.get
  rw [hcount]
  unfold CreatesKvm
  by_cases hfree : s.consoles.count r.systemId < s.sessionMaxCount .kvm
  · rw [decide_eq_false (not_le.mpr hfree), exec_bind_ok (exec_refuse_false _ s)]
    by_cases hvalid : s.consoles.KvmValid r.mode r.systemId
    · rw [exec_bind_ok (exec_kvmSessionModeValidator hvalid)]
      have hknown := isSome_newSessionObject (p := p) (w := w) r.account r.authType r.ip none none
      cases hx : newSessionObject w p r.account r.authType r.ip none none with
      | none =>
        rw [hx] at hknown
        right
        refine ⟨fun h => by simp [h.known] at hknown, .internal, s.setSessionMode .kvm r.mode,
          rfl, ?_⟩
        simp [Service.consoles, Service.setSessionMode]
      | some x =>
        rw [hx] at hknown
        left
        refine ⟨⟨hfree, hvalid, hknown.symm⟩, _, _, x.place (some r.mode) r.systemId, rfl, rfl, rfl,
          ?_⟩
        simp [Service.consoles, Service.setSessionMode, Consoles.addKvm, Service.insert,
          Service.setSessions, Session.place]
    · right
      exact ⟨fun h => hvalid h.valid, _, s,
        by rw [exec_bind_error (exec_kvmSessionModeValidator_of_not hvalid)], rfl⟩
  · right
    refine ⟨fun h => hfree h.free, .sessionLimitExceeded, s, ?_, rfl⟩
    rw [decide_eq_true (not_lt.mp hfree), exec_bind_error (exec_refuse_true _ s)]

/-- A program that keeps the consoles may follow. -/
theorem CreatesKvm.followed {α β : Type} {m : ServiceM α} {f : α → ServiceM β} {r : KvmRequest}
    (h : CreatesKvm w m s r)
    (hf : ∀ a s', ∃ b s'', exec (f a) s' = (.ok b, s'') ∧ s''.consoles = s'.consoles) :
  CreatesKvm w (m >>= f) s r
  := by
  apply h.bind
  intro a s' x hmode hid hadd
  obtain ⟨b, s'', hexec, hsame⟩ := hf a s'
  exact ⟨b, s'', x, hexec, hmode, hid, hsame.trans hadd⟩

theorem Service.letsKvm_congr {s₁ : Service} {r : KvmRequest} (hconsoles : s₁.consoles = s.consoles)
    (hmax : s₁.sessionMaxCount = s.sessionMaxCount) :
  s₁.LetsKvm w r ↔ s.LetsKvm w r
  := by
  constructor
  · intro h
    exact ⟨hconsoles ▸ hmax ▸ h.free, hconsoles ▸ h.valid, h.known⟩
  · intro h
    exact ⟨by rw [hconsoles, hmax]; exact h.free, by rw [hconsoles]; exact h.valid, h.known⟩

/-- A program that keeps the consoles, and what `create` of KVM looks at, may come first. -/
theorem CreatesKvm.after_modify {α : Type} {m : ServiceM α} {r : KvmRequest} {f : Service → Service}
    (h : CreatesKvm w m (f s) r) (hconsoles : (f s).consoles = s.consoles)
    (hmax : (f s).sessionMaxCount = s.sessionMaxCount) :
  CreatesKvm w (modify f >>= fun _ => m) s r
  := by
  have hlets : (f s).LetsKvm w r ↔ s.LetsKvm w r := Service.letsKvm_congr hconsoles hmax
  unfold CreatesKvm at h ⊢
  rw [exec_bind_ok (exec_modify f s)]
  rwa [hlets, hconsoles] at h

/-- The state after a program that creates a session for the request, if it is let through. -/
def CreatedKvm (w : World Dn) (s s' : Service) (request : Option KvmRequest) : Prop :=
  (∃ r ∈ request, s.LetsKvm w r ∧ ∃ x, x.sessionMode = some r.mode ∧ x.systemId = some r.systemId
    ∧ s'.consoles = s.consoles.addKvm x r.systemId)
  ∨ ((∀ r ∈ request, ¬ s.LetsKvm w r) ∧ s'.consoles = s.consoles)

theorem CreatesKvm.created {α : Type} {m : ServiceM α} {r : KvmRequest} (h : CreatesKvm w m s r) :
  CreatedKvm w s (Raise.after m s) (some r)
  := by
  unfold Raise.after
  obtain ⟨hlets, a, s', x, hexec, hx⟩ | ⟨hlets, e, s', hexec, hsame⟩ := h
  · exact .inl ⟨r, rfl, hlets, x, by rwa [hexec]⟩
  · refine .inr ⟨?_, by rwa [hexec]⟩
    rintro r' ⟨⟩
    exact hlets

theorem createdKvm_none {s' : Service} (h : s'.consoles = s.consoles) :
  CreatedKvm w s s' none
  := .inr ⟨fun _ hr => (Option.not_mem_none _ hr).elim, h⟩

/-- The tests of a program that creates a session of KVM come first. -/
theorem CreatedKvm.outcome_bind {α β : Type} {x : Except ServiceErr α} {f : α → ServiceM β}
    {request : α → Option KvmRequest}
    (h : ∀ a, x = .ok a → CreatedKvm w s (Raise.after (f a) s) (request a)) :
  CreatedKvm w s (Raise.after (outcome x >>= f) s) (x.toOption.bind request)
  := by
  cases x with
  | error e => exact createdKvm_none rfl
  | ok a => exact h a rfl

theorem Service.consoles_setSessions_kvm (s : Service) (l : List Session) :
  (s.setSessions .kvm l).consoles = { s.consoles with kvm := l }
  := by
  simp [Service.consoles, Service.setSessions]

theorem createdKvm_handleIfRemoteSession {r : KvmRequest} {m : ServiceM Session}
    (h : CreatesKvm w m s r) (authType : AuthType) (group : Option RemoteDict) :
  CreatesKvm w (m >>= fun x => handleIfRemoteSession .kvm authType group >>= fun _ => pure x) s r
  := by
  apply h.bind
  intro y s' x hmode hid hadd
  unfold handleIfRemoteSession
  cases authType.isLdap with
  | false => exact ⟨y, s', x, rfl, hmode, hid, hadd⟩
  | true =>
    have hkvm : s'.sessions .kvm = s.sessions .kvm ++ [x] := congrArg Consoles.kvm hadd
    refine ⟨y, s'.setSessions .kvm _, { x with remoteDict := group }, rfl, hmode, hid, ?_⟩
    rw [Service.consoles_setSessions_kvm, hkvm, List.modifyLast_concat, hadd]
    rfl

theorem created_newSession (ctx : Ctx) (username password domain ip : String)
    (extra : ExtraData) :
  CreatedKvm w s (s.after p ⟨w, .newSession ctx username password .kvm domain ip extra⟩)
    (s.kvmRequest p ⟨w, .newSession ctx username password .kvm domain ip extra⟩)
  := by
  change CreatedKvm w s (Raise.after (newSession p w ctx username password .kvm domain ip extra) s)
    (if extra.isValid then _ else none)
  cases hvalid : extra.isValid with
  | false =>
    rw [after_newSession_of_not fun r hr => by simp [hr.extra] at hvalid]
    exact createdKvm_none rfl
  | true =>
    rw [if_pos rfl]
    cases hlogin : w.login.authenticate ctx.clientAddr ctx.interface username password .kvm ip
      domain with
    | error e =>
      rw [after_newSession_of_not fun r hr => by simp [hr.login] at hlogin]
      exact createdKvm_none rfl
    | ok r =>
      have hadmits : s.Admits w ctx username password .kvm domain ip extra r :=
        { type := by decide
          sso := fun h => nomatch h
          extra := hvalid
          login := hlogin }
      unfold Raise.after
      rw [exec_newSession hadmits]
      change CreatedKvm w s (Raise.after (newKvmSession p w ctx r.1 r.2 ip extra >>= _) s)
        (s.loginRequest p w ctx r.1 r.2 ip extra).toOption
      cases hrequest : s.loginRequest p w ctx r.1 r.2 ip extra with
      | error e =>
        have hexec : exec (newKvmSession p w ctx r.1 r.2 ip extra) s = (.error e, s) := by
          unfold newKvmSession
          rw [exec_bind_ok (exec_get s), hrequest]
          rfl
        unfold Raise.after
        rw [exec_bind_error hexec]
        exact createdKvm_none rfl
      | ok request =>
        apply CreatesKvm.created
        apply createdKvm_handleIfRemoteSession
        unfold newKvmSession
        apply CreatesKvm.get
        rw [hrequest]
        exact createsKvm_kvmCreate request

theorem created_createFromSource (ctx : Ctx) (mode : OccupationMode) (systemId : SystemId)
    (source : ConsoleSource) :
  CreatedKvm w s (Raise.after (createFromSource p w ctx mode systemId source) s)
    (source.request w ctx mode systemId).toOption
  := by
  cases source with
  | session x =>
    change CreatedKvm w s (Raise.after (outcome (x.consoleRequest mode systemId) >>= _) s)
      (x.consoleRequest mode systemId).toOption
    cases x.consoleRequest mode systemId with
    | error e => exact createdKvm_none rfl
    | ok r => exact (createsKvm_kvmCreate r).created
  | key k =>
    change CreatedKvm w s (Raise.after (createRemoteSessionByKey p w ctx k systemId) s)
      (keyRequest w ctx k systemId).toOption
    unfold createRemoteSessionByKey
    cases hrequest : keyRequest w ctx k systemId with
    | error e => exact createdKvm_none rfl
    | ok r =>
      apply CreatesKvm.created
      exact CreatesKvm.after_modify (createsKvm_kvmCreate r) rfl rfl

/-- What is created after a change that the consoles do not see. -/
theorem CreatedKvm.congr {s₁ s' : Service} {request : Option KvmRequest}
    (h : CreatedKvm w s₁ s' request) (hconsoles : s₁.consoles = s.consoles)
    (hmax : s₁.sessionMaxCount = s.sessionMaxCount) :
  CreatedKvm w s s' request
  := by
  have hlets (r : KvmRequest) : s₁.LetsKvm w r ↔ s.LetsKvm w r :=
    Service.letsKvm_congr hconsoles hmax
  unfold CreatedKvm at h ⊢
  simpa only [hlets, hconsoles] using h

theorem created_newRemoteConsoleSession (ctx : Ctx) (token : String) (mode : OccupationMode) :
  CreatedKvm w s (s.after p ⟨w, .newRemoteConsoleSession ctx token .kvm mode⟩)
    (s.kvmRequest p ⟨w, .newRemoteConsoleSession ctx token .kvm mode⟩)
  := by
  apply CreatedKvm.outcome_bind
  intro systemId _
  change CreatedKvm w s (Raise.after (outcome (s.consoleSource p w token mode) >>= _)
    { s with kvmKeyInfo := s.getKvmKey w.now }) _
  cases hsource : s.consoleSource p w token mode with
  | error e => exact createdKvm_none rfl
  | ok source =>
    apply CreatedKvm.congr (created_createFromSource ctx mode systemId source)
    · rfl
    · rfl

theorem created_newSessionBySso (ctx : Ctx) (ssoToken : String) (mode : OccupationMode) :
  CreatedKvm w s (s.after p ⟨w, .newSessionBySso ctx ssoToken .kvm mode⟩)
    (s.kvmRequest p ⟨w, .newSessionBySso ctx ssoToken .kvm mode⟩)
  := by
  apply CreatedKvm.outcome_bind
  intro x _
  change CreatedKvm w s (Raise.after (newKvmSessionBySso p w ctx x mode >>= _) s)
    (s.ssoRequest p w ctx x mode).toOption
  cases hrequest : s.ssoRequest p w ctx x mode with
  | error e =>
    have hexec : exec (newKvmSessionBySso p w ctx x mode) s = (.error e, s) := by
      unfold newKvmSessionBySso
      rw [exec_bind_ok (exec_get s), hrequest]
      rfl
    unfold Raise.after
    rw [exec_bind_error hexec]
    exact createdKvm_none rfl
  | ok r =>
    apply CreatesKvm.created
    apply CreatesKvm.followed
    · unfold newKvmSessionBySso
      apply CreatesKvm.get
      rw [hrequest]
      exact createsKvm_kvmCreate r
    · intro y s'
      refine ⟨y, s'.delete .sso (p.generateSessionId ssoToken), rfl, ?_⟩
      simp [Service.consoles, Service.delete, Service.setSessions]

end Kvm

/-! ## Creations of VNC -/

/-- The request for a session of VNC that the tests of a call let through. -/
def Service.vncRequested {Dn : Type} (s : Service) (c : Call Dn) :
    Option (AccountInfo × OccupationMode) :=
  match c.op with
  | .newVncSession ctx vncAccount sessionMode =>
    (s.vncRequest c.world ctx vncAccount sessionMode).toOption.bind id
  | _ => none

/-- `create` of VNC lets a request through. -/
structure Service.LetsVnc {Dn : Type} (w : World Dn) (s : Service)
    (r : AccountInfo × OccupationMode) : Prop where
  free : s.havaFreeSession .vnc = true
  valid : s.consoles.VncValid r.2
  known : w.knowsPrivileges r.1 = true

section Vnc

variable {Dn : Type} {p : Platform} {w : World Dn} {s : Service}

theorem vncGuard_eq_false {mode : OccupationMode} :
  ((s.sessionMode .vnc = .exclusive || mode = .exclusive) && s.sessions .vnc ≠ []) = false
    ↔ s.consoles.VncValid mode
  := by
  have hvnc : s.sessions .vnc = s.consoles.vnc := rfl
  have hmode : s.sessionMode .vnc = s.consoles.vncMode := rfl
  rw [hvnc, hmode]
  unfold Consoles.VncValid
  simp [imp_iff_not_or]

/-- The session is added if the request is let through; else the mode may still have been set. -/
theorem created_vncCreate (r : AccountInfo × OccupationMode) (ip : String) :
  (s.LetsVnc w r ∧ ∃ x, x.sessionMode = some r.2
      ∧ (Raise.after (vncCreate p w r.1 r.2 ip) s).consoles = s.consoles.addVnc x r.2)
    ∨ (¬ s.LetsVnc w r ∧ ((Raise.after (vncCreate p w r.1 r.2 ip) s).consoles = s.consoles
      ∨ s.consoles.VncValid r.2 ∧ (Raise.after (vncCreate p w r.1 r.2 ip) s).consoles
        = { s.consoles with vncMode := r.2 }))
  := by
  unfold Raise.after vncCreate
  rw [exec_bind_ok (exec_get s)]
  cases hfree : s.havaFreeSession .vnc with
  | false =>
    right
    refine ⟨fun h => by simp [h.free] at hfree, .inl ?_⟩
    rw [Bool.not_false, exec_bind_error (exec_refuse_true _ s)]
  | true =>
    rw [Bool.not_true, exec_bind_ok (exec_refuse_false _ s)]
    by_cases hvalid : s.consoles.VncValid r.2
    · have hvalidator : exec (vncSessionModeValidator r.2) s
          = (.ok (), s.setSessionMode .vnc r.2) := by
        unfold vncSessionModeValidator
        rw [exec_bind_ok (exec_get s), vncGuard_eq_false.mpr hvalid,
          exec_bind_ok (exec_refuse_false _ s)]
        rfl
      rw [exec_bind_ok hvalidator]
      have hknown := isSome_newSessionObject (p := p) (w := w) r.1 .localUser ip none none
      cases hx : newSessionObject w p r.1 .localUser ip none none with
      | none =>
        rw [hx] at hknown
        right
        refine ⟨fun h => by simp [h.known] at hknown, .inr ⟨hvalid, ?_⟩⟩
        change (s.setSessionMode .vnc r.2).consoles = _
        simp [Service.consoles, Service.setSessionMode]
      | some x =>
        rw [hx] at hknown
        left
        refine ⟨⟨hfree, hvalid, hknown.symm⟩, x.place (some r.2) (.number 0), rfl, ?_⟩
        change ((s.setSessionMode .vnc r.2).insert .vnc _).consoles = _
        simp [Service.consoles, Service.setSessionMode, Consoles.addVnc, Service.insert,
          Service.setSessions]
    · have hvalidator : exec (vncSessionModeValidator r.2) s
          = (.error (.sessionModeIsExclusive .vnc), s) := by
        unfold vncSessionModeValidator
        rw [exec_bind_ok (exec_get s), eq_true_of_ne_false (mt vncGuard_eq_false.mp hvalid),
          exec_bind_error (exec_refuse_true _ s)]
      right
      refine ⟨fun h => hvalid h.valid, .inl ?_⟩
      rw [exec_bind_error hvalidator]

theorem created_newVncSession (ctx : Ctx) (vncAccount : Except LoginErr AccountInfo)
    (sessionMode : ℤ) :
  let c : Call Dn := ⟨w, .newVncSession ctx vncAccount sessionMode⟩
  (∃ r ∈ s.vncRequested c, s.LetsVnc w r ∧ ∃ x, x.sessionMode = some r.2
      ∧ (s.after p c).consoles = s.consoles.addVnc x r.2)
    ∨ ((∀ r ∈ s.vncRequested c, ¬ s.LetsVnc w r) ∧ ((s.after p c).consoles = s.consoles
      ∨ ∃ mode, s.consoles.VncValid mode
        ∧ (s.after p c).consoles = { s.consoles with vncMode := mode }))
  := by
  intro c
  have hafter : s.after p c
      = Raise.after (outcome (s.vncRequest w ctx vncAccount sessionMode)
        >>= createVncSession p w ctx) s := rfl
  have hrequested : s.vncRequested c
      = (s.vncRequest w ctx vncAccount sessionMode).toOption.bind id := rfl
  rw [hafter, hrequested]
  cases hrequest : s.vncRequest w ctx vncAccount sessionMode with
  | error e => exact .inr ⟨fun _ h => (Option.not_mem_none _ h).elim, .inl rfl⟩
  | ok request =>
    cases request with
    | none => exact .inr ⟨fun _ h => (Option.not_mem_none _ h).elim, .inl rfl⟩
    | some r =>
      have hcreate : Raise.after (outcome (.ok (some r) : Except ServiceErr _)
          >>= createVncSession p w ctx) s
            = Raise.after (vncCreate p w r.1 r.2 ctx.clientAddr) s := by
        change Raise.after (vncCreate p w r.1 r.2 ctx.clientAddr >>= fun _ => pure ()) s = _
        unfold Raise.after
        rw [exec_bind]
        rcases exec (vncCreate p w r.1 r.2 ctx.clientAddr) s with ⟨_ | _, _⟩ <;> rfl
      rw [hcreate]
      obtain ⟨hlets, x, hx⟩ | ⟨hlets, hsame | hmode⟩ :=
        created_vncCreate (p := p) (w := w) (s := s) r ctx.clientAddr
      · exact .inl ⟨r, rfl, hlets, x, hx⟩
      · exact .inr ⟨by rintro r' ⟨⟩; exact hlets, .inl hsame⟩
      · exact .inr ⟨by rintro r' ⟨⟩; exact hlets, .inr ⟨r.2, hmode⟩⟩

end Vnc

/-! ## The tests -/

section Tests

variable {Dn : Type} {p : Platform} {w : World Dn} {s : Service}

theorem vnc_of_noConflict {mode : OccupationMode}
    (h : s.checkRemoteConsoleSessionModeConflicts .vnc mode = true)
    (hex : s.consoles.vncMode = .exclusive) :
  s.consoles.vnc = []
  := by
  have hmode : s.sessionMode .vnc = .exclusive := hex
  change s.sessions .vnc = []
  simpa [Service.checkRemoteConsoleSessionModeConflicts, hmode] using h

theorem kvm_of_noConflict (h : s.checkRemoteConsoleSessionModeConflicts .kvm .exclusive = true) :
  s.consoles.kvm = []
  := by
  change s.sessions .kvm = []
  unfold Service.checkRemoteConsoleSessionModeConflicts at h
  cases hmode : s.sessionMode .kvm <;> simpa [hmode] using h

theorem checked_loginRequest {ctx : Ctx} {info : AccountInfo} {authType : AuthType} {ip : String}
    {extra : ExtraData} {r : KvmRequest}
    (h : s.loginRequest p w ctx info authType ip extra = .ok r) :
  ∃ mode, s.checkRemoteConsoleSessionModeConflicts .vnc mode = true
  := by
  unfold Service.loginRequest at h
  obtain ⟨must, -, h⟩ := exists_of_bind_eq_ok h
  cases must with
  | true => cases h
  | false =>
    obtain ⟨_, -, h⟩ := exists_of_bind_eq_ok h
    obtain ⟨_, -, h⟩ := exists_of_bind_eq_ok h
    obtain ⟨mode, -, h⟩ := exists_of_bind_eq_ok h
    use mode
    cases hcheck : s.checkRemoteConsoleSessionModeConflicts .vnc mode with
    | true => rfl
    | false =>
      rw [hcheck] at h
      cases h

theorem checked_consoleSource {token : String} {mode : OccupationMode} {source : ConsoleSource}
    (h : s.consoleSource p w token mode = .ok source) :
  s.checkRemoteConsoleSessionModeConflicts .vnc mode = true
  := by
  unfold Service.consoleSource at h
  obtain ⟨_, -, h⟩ := exists_of_bind_eq_ok h
  cases hcheck : s.checkRemoteConsoleSessionModeConflicts .vnc mode with
  | true => rfl
  | false =>
    rw [hcheck] at h
    cases h

theorem checked_ssoRequest {ctx : Ctx} {x : Session} {mode : OccupationMode} {r : KvmRequest}
    (h : s.ssoRequest p w ctx x mode = .ok r) :
  s.checkRemoteConsoleSessionModeConflicts .vnc mode = true
  := by
  unfold Service.ssoRequest at h
  cases hcheck : s.checkRemoteConsoleSessionModeConflicts .vnc mode with
  | true => rfl
  | false =>
    rw [hcheck] at h
    cases h

theorem toOption_eq_some {ε α : Type} {x : Except ε α} {a : α} (h : x.toOption = some a) :
  x = .ok a
  := by
  cases x with
  | error e => cases h
  | ok b => exact congrArg Except.ok (Option.some_inj.mp h)

/-- A request for KVM is not let through beside an exclusive session of VNC. -/
theorem vnc_of_kvmRequest {c : Call Dn} {r : KvmRequest} (h : r ∈ s.kvmRequest p c)
    (hex : s.consoles.vncMode = .exclusive) :
  s.consoles.vnc = []
  := by
  obtain ⟨w, op⟩ := c
  unfold Service.kvmRequest at h
  cases op with
  | newSession ctx username password t domain ip extra =>
    cases t with
    | kvm =>
      dsimp only at h
      split at h
      · obtain ⟨r', -, h⟩ := Option.bind_eq_some_iff.mp h
        obtain ⟨mode, hmode⟩ := checked_loginRequest (toOption_eq_some h)
        exact vnc_of_noConflict hmode hex
      · cases h
    | gui | redfish | sso | vnc | video => cases h
  | newRemoteConsoleSession ctx token t mode =>
    cases t with
    | kvm =>
      obtain ⟨_, -, h⟩ := Option.bind_eq_some_iff.mp h
      obtain ⟨_, hsource, -⟩ := Option.bind_eq_some_iff.mp h
      exact vnc_of_noConflict (checked_consoleSource (toOption_eq_some hsource)) hex
    | gui | redfish | sso | vnc | video => cases h
  | newSessionBySso ctx ssoToken t mode =>
    cases t with
    | kvm =>
      obtain ⟨_, -, h⟩ := Option.bind_eq_some_iff.mp h
      exact vnc_of_noConflict (checked_ssoRequest (toOption_eq_some h)) hex
    | gui | redfish | sso | vnc | video => cases h
  | _ => cases h

/-- A request for an exclusive session of VNC is not let through beside one of KVM. -/
theorem kvm_of_vncRequested {c : Call Dn} {r : AccountInfo × OccupationMode}
    (h : r ∈ s.vncRequested c) (hex : r.2 = .exclusive) :
  s.consoles.kvm = []
  := by
  obtain ⟨w, op⟩ := c
  unfold Service.vncRequested at h
  cases op with
  | newVncSession ctx vncAccount sessionMode =>
    obtain ⟨request, hrequest, h⟩ := Option.bind_eq_some_iff.mp h
    obtain rfl : request = some r := h
    have hok := toOption_eq_some hrequest
    unfold Service.vncRequest at hok
    split at hok
    · cases hok
    cases vncAccount with
    | error e => cases hok
    | ok info =>
      dsimp only at hok
      split at hok
      · cases hok
      obtain ⟨mode, -, hok⟩ := exists_of_bind_eq_ok hok
      cases hcheck : s.checkRemoteConsoleSessionModeConflicts .kvm mode with
      | false =>
        rw [hcheck] at hok
        cases hok
      | true =>
        rw [hcheck] at hok
        cases hok
        obtain rfl : mode = .exclusive := hex
        exact kvm_of_noConflict hcheck
  | _ => cases h

end Tests

/-! ## Runs -/

section Runs

variable {Dn : Type} {p : Platform} {s : Service}

/-- A request for KVM that is let through is under another identifier than the others of its
system, and none of them is exclusive; it is not exclusive beside VNC. A request for VNC is not
let through beside an exclusive session of KVM. -/
def Service.SparesConsoles (p : Platform) (s : Service) (c : Call Dn) : Prop :=
  (∀ r ∈ s.kvmRequest p c, s.LetsKvm c.world r → s.consoles.SparesKvm p r.mode r.systemId)
  ∧ ∀ r ∈ s.vncRequested c, s.LetsVnc c.world r → s.consoles.SparesVnc

/-- A call that creates no session of VNC. -/
theorem step_createdKvm {c : Call Dn} (hrec : s.consoles.Recorded) (hs : s.consoles.Exclusive p)
    (hvnc : s.vncRequested c = none)
    (h : CreatedKvm c.world s (s.after p c) (s.kvmRequest p c)) :
  (s.after p c).consoles.Recorded
    ∧ ((s.after p c).consoles.Exclusive p ↔ s.SparesConsoles p c)
  := by
  unfold Service.SparesConsoles
  simp only [hvnc, Option.not_mem_none, false_implies, implies_true, and_true]
  obtain ⟨r, hr, hlets, x, hmode, hid, hadd⟩ | ⟨hnone, hsame⟩ := h
  · rw [hadd, hs.addKvm_iff hrec hmode hid hlets.valid (vnc_of_kvmRequest hr)]
    refine ⟨hrec.addKvm hmode hid hlets.valid, fun h r' hr' _ => ?_, fun h => h r hr hlets⟩
    obtain rfl : r = r' := Option.mem_unique hr hr'
    exact h
  · rw [hsame]
    exact ⟨hrec, fun _ r hr hlets => absurd hlets (hnone r hr), fun _ => hs⟩

/-- A call that does not ask for a session of KVM or VNC. -/
theorem step_sameConsoles {c : Call Dn} (hrec : s.consoles.Recorded)
    (hs : s.consoles.Exclusive p) (hkvm : s.kvmRequest p c = none)
    (hvnc : s.vncRequested c = none) (hsame : s.Same .kvm (s.after p c))
    (hsame' : s.Same .vnc (s.after p c)) :
  (s.after p c).consoles.Recorded
    ∧ ((s.after p c).consoles.Exclusive p ↔ s.SparesConsoles p c)
  := by
  apply step_createdKvm hrec hs hvnc
  rw [hkvm]
  apply createdKvm_none
  unfold Service.consoles
  rw [hsame.1, hsame'.1, hsame'.2.1, hsame.2.2 rfl]

theorem step_newVncSession (hrec : s.consoles.Recorded) (hs : s.consoles.Exclusive p)
    (w : World Dn) (ctx : Ctx) (vncAccount : Except LoginErr AccountInfo) (sessionMode : ℤ) :
  let c : Call Dn := ⟨w, .newVncSession ctx vncAccount sessionMode⟩
  (s.after p c).consoles.Recorded
    ∧ ((s.after p c).consoles.Exclusive p ↔ s.SparesConsoles p c)
  := by
  intro c
  have hkvm : ∀ r ∈ s.kvmRequest p c, s.LetsKvm c.world r →
      s.consoles.SparesKvm p r.mode r.systemId := fun r hr => (Option.not_mem_none r hr).elim
  obtain ⟨r, hr, hlets, x, hmode, hadd⟩ | ⟨hnone, hsame⟩ :=
    created_newVncSession (p := p) (w := w) (s := s) ctx vncAccount sessionMode
  · rw [hadd, hrec.addVnc_iff hmode hlets.valid (kvm_of_vncRequested hr)]
    refine ⟨hrec.addVnc hmode hlets.valid, fun h => ⟨hkvm, fun r' hr' _ => h⟩,
      fun h => h.2 r hr hlets⟩
  · have hspares : s.SparesConsoles p c := ⟨hkvm, fun r hr hlets => absurd hlets (hnone r hr)⟩
    obtain hsame | ⟨mode, hvalid, hset⟩ := hsame
    · rw [hsame]
      exact ⟨hrec, fun _ => hspares, fun _ => hs⟩
    · rw [hset]
      exact ⟨hrec.setVncMode hvalid, fun _ => hspares, fun _ => hs⟩

/-- A session of SSO is not one to create a session of VNC from. -/
theorem keeps_same_newSessionBySso_vnc {w : World Dn} {t : SessionType} (hsso : t ≠ .sso)
    (ctx : Ctx) (ssoToken : String) (mode : OccupationMode) :
  Keeps (s.Same t) (newSessionBySso p w ctx ssoToken .vnc mode)
  := by
  unfold newSessionBySso
  apply Keeps.bind Keeps.get
  intro _
  apply Keeps.bind Keeps.outcome
  intro _
  apply Keeps.bind Keeps.throw
  intro _
  apply Keeps.bind (keeps_same_modify fun s => s.same_setSessions _ hsso)
  intro _
  exact Keeps.pure

/-- A call keeps exclusive sessions alone just if the sessions that are there are spared. -/
theorem step_exclusive (hrec : s.consoles.Recorded) (hs : s.consoles.Exclusive p)
    (c : Call Dn) :
  (s.after p c).consoles.Recorded
    ∧ ((s.after p c).consoles.Exclusive p ↔ s.SparesConsoles p c)
  := by
  have hdeletes (h : s.Deletes (s.after p c)) (hkvm : s.kvmRequest p c = none)
      (hvnc : s.vncRequested c = none) :
      (s.after p c).consoles.Recorded
        ∧ ((s.after p c).consoles.Exclusive p ↔ s.SparesConsoles p c) := by
    refine ⟨hrec.deletes h, fun _ => ⟨fun r hr => ?_, fun r hr => ?_⟩, fun _ => hs.deletes h⟩
    · exact (Option.not_mem_none r (hkvm ▸ hr)).elim
    · exact (Option.not_mem_none r (hvnc ▸ hr)).elim
  obtain ⟨w, op⟩ := c
  cases op with
  | newSession ctx username password t domain ip extra =>
    cases t with
    | kvm => exact step_createdKvm hrec hs rfl (created_newSession _ _ _ _ _ _)
    | vnc =>
      have hafter : s.after p ⟨w, .newSession ctx username password .vnc domain ip extra⟩ = s :=
        after_newSession_of_not fun r hr => absurd rfl hr.type.1
      apply step_sameConsoles hrec hs rfl rfl
      · rw [hafter]
        exact .refl _ s
      · rw [hafter]
        exact .refl _ s
    | gui | redfish | sso | video =>
      apply step_sameConsoles hrec hs rfl rfl
      · exact (keeps_same_newSession (by decide) _ _ _ _ _ _).after (.refl _ s)
      · exact (keeps_same_newSession (by decide) _ _ _ _ _ _).after (.refl _ s)
  | newRemoteConsoleSession ctx token t mode =>
    cases t with
    | kvm => exact step_createdKvm hrec hs rfl (created_newRemoteConsoleSession _ _ _)
    | gui | redfish | sso | vnc | video =>
      apply step_sameConsoles hrec hs rfl rfl
      · exact (keeps_same_newRemoteConsoleSession (.inr (by decide)) (.inl (by decide)) _ _
          _).after (.refl _ s)
      · exact (keeps_same_newRemoteConsoleSession (.inr (by decide)) (.inl (by decide)) _ _
          _).after (.refl _ s)
  | newSessionBySso ctx ssoToken t mode =>
    cases t with
    | kvm => exact step_createdKvm hrec hs rfl (created_newSessionBySso _ _ _)
    | vnc =>
      apply step_sameConsoles hrec hs rfl rfl
      · exact (keeps_same_newSessionBySso_vnc (by decide) _ _ _).after (.refl _ s)
      · exact (keeps_same_newSessionBySso_vnc (by decide) _ _ _).after (.refl _ s)
    | gui | redfish | sso | video =>
      apply step_sameConsoles hrec hs rfl rfl
      · exact (keeps_same_newSessionBySso (by decide) (by decide) _ _ _).after (.refl _ s)
      · exact (keeps_same_newSessionBySso (by decide) (by decide) _ _ _).after (.refl _ s)
  | newVncSession ctx vncAccount sessionMode =>
    exact step_newVncSession hrec hs w ctx vncAccount sessionMode
  | newMutualAuthSession ctx userId ip =>
    apply step_sameConsoles hrec hs rfl rfl
    · exact (keeps_same_newMutualAuthSession (by decide) _ _ _).after (.refl _ s)
    · exact (keeps_same_newMutualAuthSession (by decide) _ _ _).after (.refl _ s)
  | setKvmKey | validateSession | deleteSession | deleteSessionByUsername | deleteSessionByIp
  | deleteRemoteSession | deleteAllSession | processTimeoutSessions =>
    exact hdeletes (after_deletes p s (by rfl)) rfl rfl

end Runs

/-- From a start without sessions of KVM and VNC exclusive sessions are alone in exactly the runs in
which every creation spares the sessions that are there. -/
theorem run_exclusive_iff {Dn : Type} (p : Platform) {s : Service} (hkvm : s.sessions .kvm = [])
    (hvnc : s.sessions .vnc = []) (l : List (Call Dn)) :
  (∀ s' ∈ Run.states (Service.after p) s l, s'.consoles.Exclusive p)
    ↔ Run.Along (Service.after p) (Service.SparesConsoles p) s l
  := by
  have hnoKvm (x : Session) : x ∉ s.consoles.kvm := by
    change x ∉ s.sessions .kvm
    rw [hkvm]
    exact List.not_mem_nil
  have hnoVnc (x : Session) : x ∉ s.consoles.vnc := by
    change x ∉ s.sessions .vnc
    rw [hvnc]
    exact List.not_mem_nil
  have hrec : s.consoles.Recorded :=
    ⟨fun x hx => absurd hx (hnoKvm x), fun x hx => absurd hx (hnoVnc x)⟩
  have hs : s.consoles.Exclusive p :=
    ⟨fun x hx => absurd hx (hnoKvm x), fun x hx => absurd hx (hnoVnc x)⟩
  exact Run.invariant_iff_of_kept (fun s c hrec hs => step_exclusive hrec hs c) hrec hs

/-! ### An exclusive session, and a shared one of another system -/

/-- A login for KVM on a system. -/
def kvmLogin (token : String) (system sessionMode : ℤ) : Call Unit :=
  ⟨plainWorld token, .newSession { plainCtx with systemId := some (.number system) } "user"
    "secret" .kvm "" "192.168.1.2" ⟨some (some sessionMode), none⟩⟩

/-- A session of VNC, shared. -/
def vncLogin (token : String) (info : AccountInfo) : Call Unit :=
  ⟨plainWorld token, .newVncSession plainCtx (.ok info) 0⟩

/-- The account of VNC. -/
def plainVncAccount : AccountInfo where
  userName := "vnc"
  id := 20
  lastLoginIp := ""
  lastLoginTime := 0
  roleId := [4]
  currentPrivileges := none
  group := none

/-- An exclusive session of KVM, a shared one of another system, and one of VNC. -/
def hiddenExclusive : List (Call Unit) :=
  [kvmLogin "a" 1 1, kvmLogin "b" 2 0, vncLogin "c" plainVncAccount]

theorem run_exclusive_iff_hidden :
  plainService.sessions .kvm = [] ∧ plainService.sessions .vnc = [] ∧
    ((∀ s' ∈ Run.states (Service.after plainPlatform) plainService hiddenExclusive,
        s'.consoles.Exclusive plainPlatform)
      ↔ Run.Along (Service.after plainPlatform) (Service.SparesConsoles plainPlatform) plainService
        hiddenExclusive)
  := ⟨rfl, rfl, run_exclusive_iff plainPlatform rfl rfl _⟩

/-- The shared session of the other system hides the exclusive one from VNC. -/
theorem hiddenExclusive_not :
  ¬ ∀ s' ∈ Run.states (Service.after plainPlatform) plainService hiddenExclusive,
    s'.consoles.Exclusive plainPlatform
  := by
  unfold Consoles.Exclusive
  decide +kernel

end Sessions

end BmcAccount
