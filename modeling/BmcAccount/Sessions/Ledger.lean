import BmcAccount.Sessions.Login
import BmcAccount.Lib.RecentLog

/-!
# The ledger of the sessions

What matters of the sessions to someone who asks why one is gone: the identifiers of those that
are there, all that have been removed, and the log of the last removals that the service answers
from. Sessions of the command line are told apart from the others, since the identifier of such a
session is that of a process and comes back.

A removal can be recorded in the log or not. `Move φ` says what can happen to a ledger if a
removal may be left out of the log as long as it satisfies `φ`. Where only sessions of the command
line are left out, and no other identifier comes back, the log remembers the last removals
(`Ledger.remembers`).
-/

namespace BmcAccount

namespace Sessions

/-! ## Removals -/

/-- `SessionLogoutType`. -/
inductive LogoutType where
  | sessionLogout
  | sessionTimeout
  | sessionKickout
  | sessionRelogin
  | accountConfigChange
  | bmcConfigChange
deriving DecidableEq

/-- The removal of a session with a type. -/
structure Removal where
  isCli : Bool
  sessionId : String
  logoutType : LogoutType
deriving DecidableEq

/-- What is recorded of it. -/
def Removal.entry (d : Removal) : String × LogoutType := (d.sessionId, d.logoutType)

/-- `MAX_LOGOUT_SESSION`. -/
def maxLogoutSession : ℕ := 32

/-- The identifier of the session of the command line that belongs to a process. -/
def cliId (pid : ℕ) : String := "cli" ++ toString pid

/-- The identifier is that of a process. -/
def IsCliId (i : String) : Prop := ∃ pid, i = cliId pid

/-! ## Ledgers -/

/-- The identifiers of the sessions, those of the command line apart, the removals so far, and
the log. -/
@[ext]
structure Ledger where
  live : Multiset String
  cli : List String
  removed : List Removal
  logouts : List (String × LogoutType)

namespace Ledger

/-- The identifiers of the removals of sessions that are not of the command line. -/
def others (l : List Removal) : Multiset String :=
  ((l.filter fun d => !d.isCli).map Removal.sessionId : List String)

/-- The identifiers that there are and have been. -/
def used (L : Ledger) : Multiset String := L.live + others L.removed

/-- Sessions are removed. -/
structure Takes (l : List Removal) (L L' : Ledger) : Prop where
  live : L.live = L'.live + others l
  cli : L'.cli.Sublist L.cli
  mem : ∀ d ∈ l, d.isCli = true → d.sessionId ∈ L.cli
  removed : L'.removed = L.removed ++ l
  logouts : L'.logouts = L.logouts

/-- Removals are recorded. -/
def record (L : Ledger) (l : List Removal) : Ledger :=
  { L with logouts := (l.map Removal.entry).foldl (RecentLog.push maxLogoutSession) L.logouts }

/-- A session is created. -/
def enter (L : Ledger) (i : String) : Ledger := { L with live := i ::ₘ L.live }

/-- A session of the command line is created. -/
def enterCli (L : Ledger) (i : String) : Ledger := { L with cli := L.cli ++ [i] }

/-- Sessions are removed and recorded, or removed without being recorded, or a process gets a
session. -/
inductive Move (φ : Removal → Prop) : Ledger → Ledger → Prop where
  | logged {L L' : Ledger} {l : List Removal} (h : Takes l L L') : Move φ L (L'.record l)
  | unlogged {L L' : Ledger} {l : List Removal} (h : Takes l L L') (hφ : ∀ d ∈ l, φ d) : Move φ L L'
  | enterCli {L : Ledger} {pid : ℕ} (h : cliId pid ∉ L.cli) : Move φ L (L.enterCli (cliId pid))

/-- Moves one after the other. -/
abbrev Moves (φ : Removal → Prop) : Ledger → Ledger → Prop := Relation.ReflTransGen (Move φ)

/-- Moves, and between them perhaps the creation of one session. -/
inductive Creates (φ : Removal → Prop) (i : String) : Ledger → Ledger → Prop where
  | none {L L' : Ledger} (h : Moves φ L L') : Creates φ i L L'
  | one {L L₁ L' : Ledger} (h₁ : Moves φ L L₁) (h₂ : Moves φ (L₁.enter i) L') : Creates φ i L L'

variable {L L' L'' : Ledger} {l l' : List Removal} {φ : Removal → Prop} {i : String}

theorem Creates.tail (h : Creates φ i L L') (h' : Moves φ L' L'') :
  Creates φ i L L''
  := by
  cases h with
  | none h => exact .none (h.trans h')
  | one h₁ h₂ => exact .one h₁ (h₂.trans h')

/-! ### What is removed -/

theorem others_append (l l' : List Removal) :
  others (l ++ l') = others l + others l'
  := by
  unfold others
  rw [List.filter_append, List.map_append, Multiset.coe_add]

theorem others_eq_zero (h : ∀ d ∈ l, d.isCli = true) :
  others l = 0
  := by
  unfold others
  have hnone : l.filter (fun d => !d.isCli) = [] := by
    rw [List.filter_eq_nil_iff]
    intro d hd
    rw [h d hd]
    exact Bool.false_ne_true
  rw [hnone]
  rfl

theorem others_map (sessionIds : List String) (t : LogoutType) :
  others (sessionIds.map fun i => ⟨false, i, t⟩) = sessionIds
  := by
  have hall : (sessionIds.map fun i => (⟨false, i, t⟩ : Removal)).filter (fun d => !d.isCli)
      = sessionIds.map fun i => ⟨false, i, t⟩ := by
    rw [List.filter_eq_self]
    intro d hd
    obtain ⟨i, _, rfl⟩ := List.mem_map.mp hd
    rfl
  unfold others
  rw [hall, List.map_map]
  exact congrArg _ (List.map_id _)

theorem takes_nil (L : Ledger) :
  Takes [] L L
  where
    live := (add_zero _).symm
    cli := List.Sublist.refl _
    mem _ hd := absurd hd List.not_mem_nil
    removed := (List.append_nil _).symm
    logouts := rfl

theorem Takes.trans (h : Takes l L L') (h' : Takes l' L' L'') :
  Takes (l ++ l') L L''
  where
    live := by rw [h.live, h'.live, others_append, add_assoc, add_comm (others l')]
    cli := h'.cli.trans h.cli
    mem d hd hcli := by
      rcases List.mem_append.mp hd with hd | hd
      · exact h.mem d hd hcli
      · exact h.cli.subset (h'.mem d hd hcli)
    removed := by rw [h'.removed, h.removed, List.append_assoc]
    logouts := h'.logouts.trans h.logouts

/-- What is removed has been there. -/
theorem Takes.used_eq (h : Takes l L L') :
  L'.used = L.used
  := by
  unfold used
  rw [h.removed, others_append, h.live, add_assoc, add_comm (others l)]

theorem used_enter (L : Ledger) (i : String) :
  (L.enter i).used = i ::ₘ L.used
  := Multiset.cons_add i _ _

/-- A move creates no identifier but those of processes. -/
theorem Move.used_eq (h : Move φ L L') :
  L'.used = L.used
  := by
  cases h with
  | logged h => exact h.used_eq
  | unlogged h _ => exact h.used_eq
  | enterCli _ => rfl

theorem Moves.used_eq (h : Moves φ L L') :
  L'.used = L.used
  := by
  induction h with
  | refl => rfl
  | tail _ h ih => rw [h.used_eq, ih]

/-! ## The identifiers of processes -/

/-- The sessions of the command line, and no others, have the identifiers of processes, and no
two of those that are there have the same one. -/
structure Named (L : Ledger) : Prop where
  nodup : L.cli.Nodup
  cli : ∀ i ∈ L.cli, IsCliId i
  removed : ∀ d ∈ L.removed, d.isCli = true → IsCliId d.sessionId
  used : ∀ i ∈ L.used, ¬ IsCliId i

theorem Named.takes (hL : L.Named) (h : Takes l L L') :
  L'.Named
  where
    nodup := hL.nodup.sublist h.cli
    cli i hi := hL.cli i (h.cli.subset hi)
    removed d hd hcli := by
      rw [h.removed] at hd
      rcases List.mem_append.mp hd with hd | hd
      · exact hL.removed d hd hcli
      · exact hL.cli _ (h.mem d hd hcli)
    used := by
      rw [h.used_eq]
      exact hL.used

theorem Named.record (hL : L.Named) (l : List Removal) :
  (L.record l).Named
  := ⟨hL.nodup, hL.cli, hL.removed, hL.used⟩

theorem Named.move (hL : L.Named) (h : Move φ L L') :
  L'.Named
  := by
  cases h with
  | logged h => exact (hL.takes h).record _
  | unlogged h _ => exact hL.takes h
  | @enterCli pid h =>
    refine ⟨?_, ?_, hL.removed, hL.used⟩
    · exact List.nodup_append'.mpr ⟨hL.nodup, List.nodup_singleton _, by simpa using h⟩
    · intro i hi
      rcases List.mem_append.mp hi with hi | hi
      · exact hL.cli i hi
      · exact ⟨pid, List.mem_singleton.mp hi⟩

theorem Named.moves (hL : L.Named) (h : Moves φ L L') :
  L'.Named
  := by
  induction h with
  | refl => exact hL
  | tail _ h ih => exact ih.move h

theorem Named.enter (hL : L.Named) (hi : ¬ IsCliId i) :
  (L.enter i).Named
  := by
  refine ⟨hL.nodup, hL.cli, hL.removed, ?_⟩
  rw [used_enter]
  intro j hj
  rcases Multiset.mem_cons.mp hj with rfl | hj
  · exact hi
  · exact hL.used j hj

/-- A session that is created with another identifier than that of a process leaves the names as
they should be. -/
theorem Named.creates (hL : L.Named) (hi : ¬ IsCliId i) (h : Creates φ i L L') :
  L'.Named
  := by
  cases h with
  | none h => exact hL.moves h
  | one h₁ h₂ => exact ((hL.moves h₁).enter hi).moves h₂

/-- A new identifier is still there only once. -/
theorem Creates.nodup_used (h : Creates φ i L L') (hL : L.used.Nodup) (hi : i ∉ L.used) :
  L'.used.Nodup
  := by
  cases h with
  | none h => rwa [h.used_eq]
  | one h₁ h₂ =>
    rw [h₂.used_eq, used_enter, h₁.used_eq]
    exact Multiset.nodup_cons.mpr ⟨hi, hL⟩

/-! ## The log -/

/-- The log is that of removals that cover all but those of the command line. -/
def Logged (L : Ledger) : Prop :=
  ∃ written, RecentLog.Covers (fun d : Removal => !d.isCli) L.removed written
    ∧ L.logouts = (written.rtake maxLogoutSession).map Removal.entry

theorem Logged.record (h : Takes l L L') (hL : L.Logged) :
  (L'.record l).Logged
  := by
  obtain ⟨written, hcovers, hlogouts⟩ := hL
  refine ⟨written ++ l, ?_, ?_⟩
  · change RecentLog.Covers _ L'.removed _
    rw [h.removed]
    exact hcovers.append l
  · have hmap (l : List Removal) : (l.rtake maxLogoutSession).map Removal.entry
        = (l.map Removal.entry).rtake maxLogoutSession := by
      unfold List.rtake
      rw [List.map_drop, List.length_map]
    change (l.map Removal.entry).foldl _ L'.logouts = _
    rw [h.logouts, hlogouts, hmap, RecentLog.foldl_push (by decide), hmap, List.map_append]

theorem Logged.skip (h : Takes l L L') (hl : ∀ d ∈ l, d.isCli = true) (hL : L.Logged) :
  L'.Logged
  := by
  obtain ⟨written, hcovers, hlogouts⟩ := hL
  refine ⟨written, ?_, h.logouts.trans hlogouts⟩
  rw [h.removed]
  exact hcovers.append_of_not fun d hd => by rw [hl d hd]; rfl

theorem Logged.moves (hL : L.Logged) (h : Moves (fun d => d.isCli = true) L L') :
  L'.Logged
  := by
  induction h with
  | refl => exact hL
  | tail _ h ih =>
    cases h with
    | logged h => exact ih.record h
    | unlogged h hcli => exact ih.skip h hcli
    | enterCli _ => exact ih

theorem Logged.creates (hL : L.Logged) (h : Creates (fun d => d.isCli = true) i L L') :
  L'.Logged
  := by
  cases h with
  | none h => exact hL.moves h
  | @one L₁ _ h₁ h₂ =>
    have hmid : L₁.Logged := hL.moves h₁
    have henter : (L₁.enter i).Logged := hmid
    exact henter.moves h₂

/-- A removal that is among the last 32 and not of the command line is found in the log. -/
theorem remembers (hnamed : L.Named) (hused : L.used.Nodup) (hL : L.Logged) {pre post : List Removal}
    {d : Removal} (hremoved : L.removed = pre ++ d :: post) (hd : d.isCli = false)
    (hpost : post.length < maxLogoutSession) :
  L.logouts.find? (fun e => e.1 = d.sessionId) = some d.entry
  := by
  obtain ⟨written, hcovers, hlogouts⟩ := hL
  rw [hremoved] at hcovers
  have hmem (b : Removal) (hb : b ∈ pre ++ d :: post) (hcli : b.isCli = false) :
      b ∈ L.removed.filter fun d => !d.isCli := by
    rw [hremoved, List.mem_filter, hcli]
    exact ⟨hb, rfl⟩
  have hdmem := hmem d (by simp) hd
  have hkey : ∀ b ∈ pre ++ d :: post, b.sessionId = d.sessionId → b = d := by
    intro b hb hsame
    have hcli : b.isCli = false := by
      by_contra hcli
      have hid : d.sessionId ∈ others L.removed :=
        Multiset.mem_coe.mpr (List.mem_map_of_mem hdmem)
      apply hnamed.used _ (Multiset.mem_add.mpr (Or.inr hid))
      rw [← hsame]
      exact hnamed.removed b (by rwa [hremoved]) (by simpa using hcli)
    have hnodup : ((L.removed.filter fun d => !d.isCli).map Removal.sessionId).Nodup :=
      Multiset.coe_nodup.mp (Multiset.nodup_of_le (Multiset.le_add_left _ _) hused)
    exact List.inj_on_of_nodup_map hnodup (hmem b hb hcli) hdmem hsame
  have hfind := hcovers.find_rtake Removal.sessionId (by rw [hd]; rfl) hpost hkey
  rw [hlogouts, List.find?_map]
  change ((written.rtake maxLogoutSession).find? fun b => b.sessionId = d.sessionId).map _ = _
  rw [hfind, Option.map_some]

end Ledger

end Sessions

end BmcAccount
