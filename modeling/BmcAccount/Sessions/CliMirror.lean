import BmcAccount.Sessions.RegistryRuns

/-!
# Which passes leave the sessions of the command line right

After a pass there is to be one session for each process that is online, with the user and the
address of the process, and no other. A session without its process never stays
(`exists_online_of_mem`). Whether the rest holds depends on two things: the pass compares the
identifiers only, so a process with the identifier of an earlier one keeps the session of the
earlier user, and it ends at a new user whose privileges are not known (`mirrors_iff`).
-/

namespace BmcAccount

namespace Sessions

open Raise

namespace Registry

variable {Dn : Type} {p : RegistryPlatform} {s : Registry}

/-- Each process that is online has one session with the user and the address, and there are no
other sessions. -/
def Mirrors (s : Registry) (l : OnlineUsers) : Prop :=
  (s.cli.map Session.shown).Perm (l.users.map OnlineUser.shown)

/-- A session with the identifier of a process that is online has the user and the address of the
process. -/
def NoneReused (s : Registry) (l : OnlineUsers) : Prop :=
  ∀ x ∈ s.cli, ∀ o ∈ l.users, x.sessionId = o.sessionId → x.username = o.name ∧ x.ip = o.address

/-- The privileges are known of every user whose process has no session. -/
def KnowsNew (s : Registry) (w : World Dn) (e : Processes) : Prop :=
  ∀ o ∈ e.online.users, (∀ x ∈ s.cli, x.sessionId ≠ o.sessionId) → knowsUser w e o = true

theorem shown_eq_iff {x : Session} {o : OnlineUser} (hid : x.sessionId = o.sessionId) :
  x.shown = o.shown ↔ x.username = o.name ∧ x.ip = o.address
  := by
  unfold Session.shown OnlineUser.shown
  rw [hid, Prod.mk.injEq, Prod.mk.injEq]
  exact and_iff_right rfl

theorem shown_cli_after (hs : s.ledger.Named) (w : World Dn) (e : Processes) :
  (s.after p ⟨w, e, .updateCliOnlineSession⟩).cli.map Session.shown
    = Reconcile.result Session.shown OnlineUser.shown (knowsUser w e) s.cli e.online.users
  := by
  obtain ⟨r, s', hexec, hcli, _⟩ :=
    exec_updateCliOnlineSession (p := p) (w := w) (e := e) (φ := fun _ => True) hs
  unfold after Raise.after
  rw [hexec]
  exact hcli

/-- After a pass each session has a process that is online. -/
theorem exists_online_of_mem (hs : s.ledger.Named) (w : World Dn) (e : Processes) :
  ∀ x ∈ (s.after p ⟨w, e, .updateCliOnlineSession⟩).cli,
    ∃ o ∈ e.online.users, x.sessionId = o.sessionId
  := by
  intro x hx
  have hmem : x.shown ∈ Reconcile.result Session.shown OnlineUser.shown (knowsUser w e) s.cli
      e.online.users := by
    rw [← shown_cli_after (p := p) hs]
    exact List.mem_map_of_mem hx
  rcases List.mem_append.mp hmem with hmem | hmem
  · obtain ⟨y, hy, hsame⟩ := List.mem_map.mp hmem
    obtain ⟨_, o, ho, hkey⟩ := Reconcile.mem_kept.mp hy
    have hid : y.sessionId = x.sessionId := congrArg Prod.fst hsame
    exact ⟨o, ho, by rw [← hid]; exact hkey.symm⟩
  · obtain ⟨o, ho, hsame⟩ := List.mem_map.mp hmem
    have hwanted := Reconcile.mem_missing.mp ((List.takeWhile_sublist _).subset ho)
    exact ⟨o, hwanted.1, (congrArg Prod.fst hsame).symm⟩

theorem mirrors_after_iff (hs : s.ledger.Named) (w : World Dn) (e : Processes) :
  Mirrors (s.after p ⟨w, e, .updateCliOnlineSession⟩) e.online
    ↔ NoneReused s e.online ∧ KnowsNew s w e
  := by
  have hnodup : (s.cli.map fun x => x.shown.1).Nodup := hs.nodup
  unfold Mirrors
  rw [shown_cli_after hs, Reconcile.perm_iff hnodup e.online.nodup_sessionId]
  apply and_congr_left
  intro _
  constructor
  · intro h x hx o ho hid
    exact (shown_eq_iff hid).mp (h x hx o ho hid)
  · intro h x hx o ho hkey
    have hid : x.sessionId = o.sessionId := hkey
    exact (shown_eq_iff hid).mpr (h x hx o ho hid)

/-- A pass at the end of a run leaves the sessions right just if no process has got the identifier
of the process of another user, and the privileges of all new users are known. -/
theorem mirrors_iff (p : RegistryPlatform) (config : Service) (l : List (Call Dn)) (w : World Dn)
    (e : Processes) :
  Mirrors ((l.foldl (after p) (start config)).after p ⟨w, e, .updateCliOnlineSession⟩) e.online
    ↔ NoneReused (l.foldl (after p) (start config)) e.online
      ∧ KnowsNew (l.foldl (after p) (start config)) w e
  := by
  apply mirrors_after_iff
  exact named p config l _ (Run.foldl_mem_states _ _ l)

/-! ### An identifier that comes back -/

/-- The privileges of all users of the command line are known. -/
def cliWorld : World Unit := { plainWorld "t" with roles := fun _ => some [.basicSetting] }

/-- The process of a user is gone, and that of another user has got the identifier, before the
next pass. -/
theorem reused_not_mirrors :
  ¬ Mirrors (([⟨cliWorld, oneOnline "alice" "10.0.0.1", .updateCliOnlineSession⟩].foldl
      (after plainRegistryPlatform) (start plainService)).after plainRegistryPlatform
        ⟨cliWorld, oneOnline "bob" "10.0.0.2", .updateCliOnlineSession⟩)
    (oneOnline "bob" "10.0.0.2").online
  := by
  unfold Mirrors
  decide +kernel

end Registry

end Sessions

end BmcAccount
