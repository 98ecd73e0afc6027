import BmcAccount.Ldap.GroupTableLaw
import BmcAccount.Sessions.Effects

/-!
# Changes of the remote groups

The service is told of a change of a remote group by the identifier of the group, of a deletion by
the `mdb_id`, of a change of a controller by the identifier of the controller, and of a change of
the configuration of LDAP by nothing. It deletes the sessions that have the controller and the
inner identifier that it makes of this, where they are given; the type of the group is not among
them.
-/

namespace BmcAccount

namespace Sessions

open Raise

/-! ## Events -/

/-- What the service is told. -/
inductive RemoteEvent where
  | groupChanged (groupId : ℕ)
  | groupDeleted (mdbId : String)
  | controllerChanged (controllerId : ℕ)
  | configChanged

/-- What the handlers of `ldap_signal_register` call `delete_remote_session` with. A group that is
not there is neither changed nor deleted. -/
def RemoteEvent.target (t : Ldap.GroupTable) : RemoteEvent → Option (Option ℕ × Option ℕ)
  | .groupChanged groupId =>
    (t.collection groupId).map fun g => (some g.controllerId, some g.controllerInnerId)
  | .groupDeleted mdbId =>
    (t.named mdbId).map fun _ =>
      ((Ldap.parseMdbId mdbId).map (·.2.1), (Ldap.parseMdbId mdbId).map (·.2.2))
  | .controllerChanged controllerId => some (some controllerId, none)
  | .configChanged => some (none, none)

/-- The service after an event. -/
def Service.onEvent (p : Platform) (t : Ldap.GroupTable) (s : Service) (e : RemoteEvent) :
    Service :=
  (e.target t).elim s fun a => s.deleteRemoteSessions p a.1 a.2

/-- The event makes the service delete the session. -/
def RemoteEvent.hits (t : Ldap.GroupTable) (e : RemoteEvent) (x : Session) : Bool :=
  (e.target t).any fun a => x.isOf a.1 a.2

theorem sessions_foldl_remove (removed : Session → Bool) (l : List SessionType) (s : Service)
    (u : SessionType) :
  (l.foldl (fun s t => s.remove t removed) s).sessions u
    = if u ∈ l then (s.sessions u).filter fun x => !removed x else s.sessions u
  := by
  induction l generalizing s with
  | nil => rfl
  | cons t l ih =>
    rw [List.foldl_cons, ih]
    unfold Service.remove
    by_cases hu : u = t
    · subst hu
      rw [s.sessions_setSessions, if_pos List.mem_cons_self, List.filter_filter]
      simp only [Bool.and_self, ite_self]
    · rw [s.sessions_setSessions_ne _ hu]
      simp only [List.mem_cons, hu, false_or]

/-- Exactly the sessions that are hit are deleted, whatever their type is. -/
theorem sessions_onEvent (p : Platform) (t : Ldap.GroupTable) (s : Service) (e : RemoteEvent)
    (u : SessionType) :
  (s.onEvent p t e).sessions u = (s.sessions u).filter fun x => !e.hits t x
  := by
  unfold Service.onEvent RemoteEvent.hits
  cases e.target t with
  | none => exact (List.filter_eq_self.mpr fun _ _ => rfl).symm
  | some a =>
    have hsessions := sessions_foldl_remove (Session.isOf a.1 a.2) p.pairs s u
    rw [if_pos (p.pairs_complete u)] at hsessions
    exact hsessions

/-! ## Who is concerned -/

/-- What a user has been authenticated by: groups of a controller, those whose inner identifiers
are the bits of a mask. -/
structure Authority where
  groupType : Ldap.RemoteGroupType
  dict : RemoteDict
deriving DecidableEq

/-- The group that an event is about. -/
def RemoteEvent.group (t : Ldap.GroupTable) : RemoteEvent → Option Ldap.GroupRow
  | .groupChanged groupId => t.collection groupId
  | .groupDeleted mdbId => t.named mdbId
  | .controllerChanged _ | .configChanged => none

/-- The event is about groups of the type. -/
def RemoteEvent.IsAbout (t : Ldap.GroupTable) (e : RemoteEvent)
    (groupType : Ldap.RemoteGroupType) : Prop :=
  match e with
  | .groupChanged _ | .groupDeleted _ => ∃ g ∈ e.group t, g.groupType = groupType.value
  | .controllerChanged _ | .configChanged => groupType = .ldap

/-- The numbers of what the event is about are among the given ones. -/
def RemoteEvent.Matches (t : Ldap.GroupTable) (e : RemoteEvent) (d : RemoteDict) : Prop :=
  match e with
  | .groupChanged _ | .groupDeleted _ =>
    ∃ g ∈ e.group t, d.controllerId = g.controllerId
      ∧ d.controllerInnerId.testBit g.controllerInnerId = true
  | .controllerChanged controllerId => d.controllerId = controllerId
  | .configChanged => True

/-- The event concerns the users of the authority: it is about one of the groups, or about their
controller. -/
def RemoteEvent.Concerns (t : Ldap.GroupTable) (e : RemoteEvent) (a : Authority) : Prop :=
  e.IsAbout t a.groupType ∧ e.Matches t a.dict

section Hits

variable {t : Ldap.GroupTable} {x : Session}

/-- The controller and the inner identifier of a named group are those of the name. -/
theorem parse_of_named {mdbId : String} {g : Ldap.GroupRow} (h : t.named mdbId = some g) :
  ∃ groupType, Ldap.parseMdbId mdbId = some (groupType, g.controllerId, g.controllerInnerId)
  := by
  obtain ⟨⟨groupType, controller, innerId⟩, hparse, hget⟩ := Option.bind_eq_some_iff.mp h
  unfold Ldap.GroupTable.getRemoteGroupById at hget
  dsimp only at hget
  rw [t.getRemoteGroupsInController_eq] at hget
  obtain ⟨hmem, hinner⟩ := Keyed.mem_of_index hget
  obtain ⟨i, -, hi⟩ := List.mem_filterMap.mp hmem
  have hin := Ldap.GroupRow.isIn_iff.mp (Option.filter_eq_some_iff.mp hi).2
  refine ⟨groupType, ?_⟩
  rw [hparse, hin.2, hinner]

theorem isOf_group {g : Ldap.GroupRow} :
  x.isOf (some g.controllerId) (some g.controllerInnerId) = true
    ↔ ∃ d ∈ x.remoteDict, d.controllerId = g.controllerId
      ∧ d.controllerInnerId.testBit g.controllerInnerId = true
  := by
  unfold Session.isOf
  simp only [Option.any_eq_true, Option.all_some, Bool.and_eq_true, decide_eq_true_eq,
    Option.mem_def]
  refine exists_congr fun d => and_congr_right fun _ => and_congr_right fun _ => ?_
  rw [Nat.one_shiftLeft, Nat.and_two_pow]
  cases d.controllerInnerId.testBit g.controllerInnerId <;> simp

/-- What the handler of a change or a deletion of a group makes of it. -/
theorem target_group {e : RemoteEvent} {g : Ldap.GroupRow} (hg : e.group t = some g) :
  e.target t = some (some g.controllerId, some g.controllerInnerId)
  := by
  cases e with
  | groupChanged groupId => exact congrArg (Option.map _) hg
  | groupDeleted mdbId =>
    have hnamed : t.named mdbId = some g := hg
    obtain ⟨groupType, hparse⟩ := parse_of_named hnamed
    unfold RemoteEvent.target
    dsimp only
    rw [hparse, hnamed]
    rfl
  | controllerChanged | configChanged => cases hg

/-- The service goes by the numbers, for every event. -/
theorem hits_iff (e : RemoteEvent) :
  e.hits t x = true ↔ ∃ d ∈ x.remoteDict, e.Matches t d
  := by
  unfold RemoteEvent.hits
  have hgroup (hmatches : ∀ d, e.Matches t d ↔ ∃ g ∈ e.group t, d.controllerId = g.controllerId
      ∧ d.controllerInnerId.testBit g.controllerInnerId = true)
      (hnone : e.group t = none → e.target t = none) :
      (e.target t).any (fun a => x.isOf a.1 a.2) = true ↔ ∃ d ∈ x.remoteDict, e.Matches t d := by
    cases hg : e.group t with
    | none => simp [hnone hg, hmatches, hg]
    | some g =>
      rw [target_group hg, Option.any_some, isOf_group]
      simp [hmatches, hg]
  cases e with
  | groupChanged groupId => exact hgroup (fun _ => Iff.rfl) fun h => congrArg (Option.map _) h
  | groupDeleted mdbId => exact hgroup (fun _ => Iff.rfl) fun h => congrArg (Option.map _) h
  | controllerChanged c =>
    simp [RemoteEvent.target, RemoteEvent.Matches, Session.isOf, Option.any_eq_true]
  | configChanged =>
    simp [RemoteEvent.target, RemoteEvent.Matches, Session.isOf, Option.isSome_iff_exists]

end Hits

end Sessions

end BmcAccount
