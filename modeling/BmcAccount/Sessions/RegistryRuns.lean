import BmcAccount.Lib.Run
import BmcAccount.Sessions.CliPass
import BmcAccount.Sessions.Creations

/-!
# Runs of the registry

Whatever its operation is, a call makes moves on the ledger, and it creates at most one session
with the identifier that is generated for it (`creates_after`). Only an operation that creates
sessions generates an identifier. What is removed without being recorded is limited by `Allows`.

In every state of a run the sessions of the command line, and no others, have the identifiers of
processes (`named`).
-/

namespace BmcAccount

namespace Sessions

open Raise

namespace Registry

variable {Dn : Type} {p : RegistryPlatform} {φ : Removal → Prop} {s : Registry} {c : Call Dn}

/-! ## One call -/

/-- The operation generates an identifier. -/
def Op.generates : Op → Bool
  | .newSession .. | .newSessionBySso .. | .enter .. | .createInnerSession .. => true
  | _ => false

/-- What the call removes without recording it satisfies `φ`. -/
def Allows (φ : Removal → Prop) (p : RegistryPlatform) (s : Registry) (c : Call Dn) : Prop :=
  match c.op with
  | .newSession ctx username password t domain ip extra =>
    t = .sso → ∀ r, admission c.world s.service ctx username password t domain ip extra = .ok r →
      (s.service.relogin .sso username).havaFreeSession .sso = false →
      ∀ x ∈ (s.service.relogin .sso username).sessions .sso,
        φ ⟨false, x.sessionId, .sessionRelogin⟩
  | .newSessionBySso ctx ssoToken t mode =>
    ∀ x, s.service.ssoSource p.toPlatform c.world ctx ssoToken = .ok x →
      (exec (newSessionFromSso p c.world ctx x ssoToken t mode) s).1.isOk = true →
      φ ⟨false, p.generateSessionId ssoToken, .sessionLogout⟩
  | .deleteAllSession ctx t k ipType =>
    ∀ sh, ∀ x ∈ s.sessions sh, isCleared p c.world ctx k ipType sh x = true →
      φ ⟨sh = .cli, x.sessionId, t⟩
  | _ => True

theorem allows_of_forall (hφ : ∀ d, φ d) :
  Allows φ p s c
  := by
  unfold Allows
  split
  · exact fun _ _ _ _ _ _ => hφ _
  · exact fun _ _ _ => hφ _
  · exact fun _ _ _ _ => hφ _
  · trivial

/-- A call without a new identifier makes moves. -/
theorem moves_after (hcli : ∀ d : Removal, d.isCli = true → φ d) (hallows : Allows φ p s c)
    (hs : s.ledger.Named) (hop : c.op.generates = false) :
  Ledger.Moves φ s.ledger (s.after p c).ledger
  := by
  have hstart : Moved φ s.ledger s := Relation.ReflTransGen.refl
  obtain ⟨world, processes, op⟩ := c
  cases op with
  | newSession | newSessionBySso | enter | createInnerSession => cases hop
  | configure service =>
    have hsame : (s.after p ⟨world, processes, .configure service⟩).ledger = s.ledger :=
      ledger_sameIds fun _ => rfl
    rw [hsame]
  | updateCliOnlineSession =>
    obtain ⟨r, s', hexec, _, hmoves⟩ :=
      exec_updateCliOnlineSession (p := p) (w := world) (e := processes) (φ := φ) hs
    unfold after Raise.after
    rw [hexec]
    exact hmoves
  | deleteSession sessionId t => exact (keeps_deleteSession sessionId t).after hstart
  | deleteSessionByUsername username t =>
    exact (Keeps.forM fun k _ => keeps_deleteAndRecord _ _ _).after hstart
  | cliDeleteByUsername username t => exact (keeps_deleteAndRecord _ _ _).after hstart
  | deleteSessionByIp ip t =>
    exact (Keeps.forM fun k _ => keeps_deleteAndRecord _ _ _).after hstart
  | deleteRemoteSession controllerId innerId t =>
    exact (keeps_deleteRemoteSession hcli processes controllerId innerId).after hstart
  | deleteAllSession ctx t k ipType =>
    exact ((keeps_deleteAllSession hallows).after (reaches_refl s)).1
  | deleteTimeoutSessionList sessionIds =>
    exact (Keeps.forM fun i _ => keeps_deleteSession i _).after hstart

/-- What a call does to the ledger. -/
theorem creates_after (hcli : ∀ d : Removal, d.isCli = true → φ d) (hallows : Allows φ p s c)
    (hs : s.ledger.Named) :
  Ledger.Creates φ (p.generateSessionId c.world.token) s.ledger (s.after p c).ledger
  := by
  by_cases hop : c.op.generates = false
  · exact .none (moves_after hcli hallows hs hop)
  · obtain ⟨world, processes, op⟩ := c
    cases op with
    | newSession ctx username password t domain ip extra =>
      exact made_newSession _ _ _ _ _ _ _ hallows
    | newSessionBySso ctx ssoToken t mode => exact made_newSessionBySso _ _ _ _ hallows
    | enter sh x => exact made_enter sh x
    | createInnerSession r t => exact made_createInnerSession r t
    | _ => exact absurd rfl hop

/-! ## Runs -/

theorem ledger_start (config : Service) :
  (start config).ledger = ⟨0, [], [], []⟩
  := rfl

/-- A call leaves the names as they should be, whatever it does not record. -/
theorem named_after (hs : s.ledger.Named) (c : Call Dn) :
  (s.after p c).ledger.Named
  := by
  have hcreates := creates_after (p := p) (φ := fun _ => True) (c := c) (fun _ _ => trivial)
    (allows_of_forall fun _ => trivial) hs
  exact hs.creates (fun ⟨pid, h⟩ => p.generateSessionId_ne _ pid h) hcreates

theorem named_start (config : Service) :
  (start config).ledger.Named
  := by
  rw [ledger_start]
  exact ⟨List.nodup_nil, nofun, nofun, nofun⟩

/-- The sessions of the command line, and no others, have the identifiers of processes. -/
theorem named (p : RegistryPlatform) (config : Service) (l : List (Call Dn)) :
  ∀ s ∈ Run.states (after p) (start config) l, s.ledger.Named
  := by
  have hstep (s : Registry) (c : Call Dn) (hs : s.ledger.Named) (_ : True) :
      (s.after p c).ledger.Named := named_after hs c
  exact Run.invariant (I := fun s : Registry => s.ledger.Named) hstep (named_start config)
    (Run.along_of_forall fun _ _ => trivial)

/-! ### A plain registry -/

/-- An identifier is made from a token. -/
def plainRegistryPlatform : RegistryPlatform where
  toPlatform := { plainPlatform with generateSessionId := fun token => "s" ++ token }
  kinds := [.ordinary .gui, .ordinary .redfish, .ordinary .sso, .ordinary .kvm, .ordinary .vnc,
    .ordinary .video, .cli, .interChassis]
  kinds_complete k := by
    cases k with
    | ordinary t => cases t <;> decide
    | cli => decide
    | interChassis => decide
  pairs_eq := rfl
  guiFirst := false
  innerOrder := .hmmFirst
  skynetReady := false
  generateSessionId_ne token pid h := by
    have hchars := congrArg String.toList h
    rw [cliId, String.toList_append, String.toList_append] at hchars
    exact absurd (List.cons.inj hchars).1 (by decide)

/-- One user of the command line. -/
def oneOnline (username host : String) : Processes where
  online := ⟨[⟨5, username, host, 0⟩], List.nodup_singleton 5⟩
  authedLdapUsers := []
  parent _ := none
  accountType _ := .localUser
  token := id

end Registry

end Sessions

end BmcAccount
