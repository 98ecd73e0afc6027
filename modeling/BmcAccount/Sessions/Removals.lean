import BmcAccount.Sessions.Registry

/-!
# What the operations do to the ledger

The ledger of a registry has the identifiers of its sessions, the removals and the log. Most of
the ways to remove sessions make moves that are recorded. Those that record nothing are
`delete_all_session`, what SSO does when it is full, the removal of the session of SSO that a
login has been made with, and, if it raises an error on the way, the removal of sessions of the
command line.
-/

namespace BmcAccount

namespace Sessions

open Raise

/-! ## The ledger -/

/-- The lists of sessions that are not of the command line. -/
def Shelf.others : List Shelf :=
  [.ordinary .gui, .ordinary .redfish, .ordinary .sso, .ordinary .kvm, .ordinary .vnc,
    .ordinary .video, .interChassis, .interChassisGui]

theorem Shelf.mem_others {sh : Shelf} (h : sh ≠ .cli) :
  sh ∈ Shelf.others
  := by
  cases sh with
  | ordinary t => cases t <;> decide
  | cli => exact absurd rfl h
  | interChassis => decide
  | interChassisGui => decide

/-- The identifiers of the inner sessions. -/
def innerIds (c : Redfish.InnerCollection) : List String :=
  (c.hmm.toList ++ c.bma.toList).map (·.sessionId)

theorem innerIds_put (c : Redfish.InnerCollection) (t : Redfish.InnerType)
    (x : Option Redfish.Session) :
  (innerIds (c.put t x) : Multiset String) + ((c.get t).toList.map (·.sessionId) : List String)
    = innerIds c + (x.toList.map (·.sessionId) : List String)
  := by
  unfold innerIds
  cases t <;>
    simp only [Redfish.InnerCollection.put, Redfish.InnerCollection.get, List.map_append,
      ← Multiset.coe_add] <;> abel

/-- A session that is replaced keeps its identifier. -/
theorem innerIds_replace {c : Redfish.InnerCollection} {t : Redfish.InnerType}
    {x y : Redfish.Session} (hx : c.get t = some x) (hy : y.sessionId = x.sessionId) :
  (innerIds (c.put t (some y)) : Multiset String) = innerIds c
  := by
  have hput := innerIds_put c t (some y)
  rw [hx, Option.toList_some, Option.toList_some, List.map_singleton, List.map_singleton,
    hy] at hput
  exact add_right_cancel hput

/-- A session comes to a type that has none. -/
theorem innerIds_insert {c : Redfish.InnerCollection} {t : Redfish.InnerType}
    (hnone : c.get t = none) (x : Redfish.Session) :
  (innerIds (c.put t (some x)) : Multiset String) = x.sessionId ::ₘ (innerIds c : Multiset String)
  := by
  have hput := innerIds_put c t (some x)
  rw [hnone] at hput
  rw [← Multiset.singleton_add, add_comm]
  simpa using hput

namespace Registry

/-- The identifiers of a list. -/
def ids (s : Registry) (sh : Shelf) : List String := (s.sessions sh).map (·.sessionId)

/-- The identifiers of all sessions that are not of the command line. -/
def live (s : Registry) : Multiset String :=
  (Shelf.others.map fun sh => (s.ids sh : Multiset String)).sum + innerIds s.inner

/-- The ledger of a registry. -/
def ledger (s : Registry) : Ledger := ⟨s.live, s.ids .cli, s.removed, s.logoutCollection⟩

section Ledger

variable {s s' : Registry} {sh : Shelf} {X Y : Multiset String}

theorem sessions_setSessions (s : Registry) (sh : Shelf) (l : List Session) :
  (s.setSessions sh l).sessions sh = l
  := by
  cases sh with
  | ordinary t => exact s.service.sessions_setSessions t l
  | cli | interChassis | interChassisGui => rfl

theorem sessions_setSessions_ne (s : Registry) {sh sh' : Shelf} (l : List Session)
    (h : sh' ≠ sh) :
  (s.setSessions sh l).sessions sh' = s.sessions sh'
  := by
  cases sh with
  | ordinary t =>
    cases sh' with
    | ordinary t' =>
      exact s.service.sessions_setSessions_ne l fun ht => h (congrArg Shelf.ordinary ht)
    | cli | interChassis | interChassisGui => rfl
  | cli | interChassis | interChassisGui =>
    cases sh' <;> first | rfl | exact absurd rfl h

@[simp]
theorem sessions_note (s : Registry) (isCli : Bool) (sessionIds : List String) (t : LogoutType)
    (sh : Shelf) :
  (s.note isCli sessionIds t).sessions sh = s.sessions sh
  := by
  cases sh <;> rfl

theorem inner_setSessions (s : Registry) (sh : Shelf) (l : List Session) :
  (s.setSessions sh l).inner = s.inner
  := by
  cases sh <;> rfl

theorem removed_setSessions (s : Registry) (sh : Shelf) (l : List Session) :
  (s.setSessions sh l).removed = s.removed
  := by
  cases sh <;> rfl

theorem logoutCollection_setSessions (s : Registry) (sh : Shelf) (l : List Session) :
  (s.setSessions sh l).logoutCollection = s.logoutCollection
  := by
  cases sh <;> rfl

/-- A sum changes as one of its terms does. -/
theorem sum_change {f f' : Shelf → Multiset String} (h : f' sh + X = f sh + Y)
    (hne : ∀ sh', sh' ≠ sh → f' sh' = f sh') {l : List Shelf} (hl : l.Nodup) (hsh : sh ∈ l) :
  (l.map f').sum + X = (l.map f).sum + Y
  := by
  induction l with
  | nil => exact absurd hsh List.not_mem_nil
  | cons a l ih =>
    rw [List.nodup_cons] at hl
    rw [List.map_cons, List.map_cons, List.sum_cons, List.sum_cons]
    by_cases ha : a = sh
    · subst ha
      have hsame : l.map f' = l.map f := by
        apply List.map_congr_left
        intro b hb
        exact hne b fun hba => hl.1 (hba ▸ hb)
      rw [hsame, add_right_comm, h, add_right_comm]
    · have hmem : sh ∈ l := (List.mem_cons.mp hsh).resolve_left fun h => ha h.symm
      rw [hne a ha, add_assoc, ih hl.2 hmem, add_assoc]

/-- All identifiers change as those of one list do. -/
theorem live_change (hsh : sh ≠ .cli) (hinner : s'.inner = s.inner)
    (h : (s'.ids sh : Multiset String) + X = s.ids sh + Y)
    (hne : ∀ sh', sh' ≠ sh → s'.ids sh' = s.ids sh') :
  s'.live + X = s.live + Y
  := by
  have hsum : (Shelf.others.map fun sh => (s'.ids sh : Multiset String)).sum + X
      = (Shelf.others.map fun sh => (s.ids sh : Multiset String)).sum + Y :=
    sum_change h (fun sh' hsh' => congrArg _ (hne sh' hsh')) (by decide) (Shelf.mem_others hsh)
  unfold live
  rw [hinner, add_right_comm, hsum, add_right_comm]

theorem live_congr (hinner : s'.inner = s.inner) (h : ∀ sh, sh ≠ .cli → s'.ids sh = s.ids sh) :
  s'.live = s.live
  := by
  unfold live
  rw [hinner]
  congr 2
  apply List.map_congr_left
  intro sh hsh
  have hne : sh ≠ .cli := by
    rintro rfl
    revert hsh
    decide
  rw [h sh hne]

theorem mem_live_of_mem_ids {i : String} (hsh : sh ≠ .cli) (hi : i ∈ s.ids sh) :
  i ∈ s.live
  := by
  unfold live
  refine Multiset.mem_add.mpr (Or.inl ?_)
  apply Multiset.mem_of_le (List.single_le_sum (fun _ _ => Multiset.zero_le _) _
    (List.mem_map_of_mem (Shelf.mem_others hsh)))
  exact Multiset.mem_coe.mpr hi

/-! ## Removing -/

/-- Sessions with the identifiers are removed with a type. -/
def Removes (s : Registry) (sessionIds : List String) (t : LogoutType) (s' : Registry) : Prop :=
  ∃ l, Ledger.Takes l s.ledger s'.ledger
    ∧ l.map Removal.entry = sessionIds.map fun i => (i, t)

theorem Removes.nil (s : Registry) (t : LogoutType) :
  Removes s [] t s
  := ⟨[], Ledger.takes_nil _, rfl⟩

theorem Removes.trans {s₁ s₂ s₃ : Registry} {l l' : List String} {t : LogoutType}
    (h : Removes s₁ l t s₂) (h' : Removes s₂ l' t s₃) :
  Removes s₁ (l ++ l') t s₃
  := by
  obtain ⟨d, hd, hentry⟩ := h
  obtain ⟨d', hd', hentry'⟩ := h'
  exact ⟨d ++ d', hd.trans hd', by rw [List.map_append, List.map_append, hentry, hentry']⟩

/-- What is missing in a list afterwards has been removed. -/
theorem takes_setSessions {l : List Session} (gone : List String) (t : LogoutType)
    (hl : l.Sublist (s.sessions sh))
    (hgone : (s.ids sh : Multiset String)
      = (l.map (·.sessionId) : List String) + (gone : Multiset String)) :
  Ledger.Takes (gone.map fun i => ⟨sh = .cli, i, t⟩) s.ledger
    ((s.setSessions sh l).note (sh = .cli) gone t).ledger
  where
    live := by
      have hids : ((s.setSessions sh l).note (sh = .cli) gone t).ids sh
          = l.map (·.sessionId) := by
        unfold ids
        rw [sessions_note, sessions_setSessions]
      have hne (sh' : Shelf) (h : sh' ≠ sh) :
          ((s.setSessions sh l).note (sh = .cli) gone t).ids sh' = s.ids sh' := by
        unfold ids
        rw [sessions_note, sessions_setSessions_ne _ _ h]
      by_cases hsh : sh = .cli
      · rw [Ledger.others_eq_zero (by simp [hsh]), add_zero]
        exact (live_congr (inner_setSessions s sh l) fun sh' h' => hne sh' (hsh ▸ h')).symm
      · have hothers : Ledger.others (gone.map fun i => ⟨sh = .cli, i, t⟩) = gone := by
          rw [decide_eq_false hsh, Ledger.others_map]
        rw [hothers]
        have hlive : ((s.setSessions sh l).note (sh = .cli) gone t).live + gone = s.live + 0 :=
          live_change hsh (inner_setSessions s sh l) (by rw [hids, hgone, add_zero]) hne
        rw [add_zero] at hlive
        exact hlive.symm
    cli := by
      change (((s.setSessions sh l).note (sh = .cli) gone t).ids .cli).Sublist (s.ids .cli)
      unfold ids
      rw [sessions_note]
      by_cases hsh : sh = .cli
      · subst hsh
        rw [sessions_setSessions]
        exact hl.map _
      · rw [sessions_setSessions_ne _ _ (Ne.symm hsh)]
    mem d hd hcli := by
      obtain ⟨i, hi, rfl⟩ := List.mem_map.mp hd
      have hsh : sh = .cli := of_decide_eq_true hcli
      subst hsh
      apply Multiset.mem_coe.mp
      change i ∈ (s.ids .cli : Multiset String)
      rw [hgone]
      exact Multiset.mem_add.mpr (Or.inr (Multiset.mem_coe.mpr hi))
    removed := by
      change (s.setSessions sh l).removed ++ _ = _
      rw [removed_setSessions]
      rfl
    logouts := logoutCollection_setSessions s sh l

end Ledger

/-! ## Recorded removals -/

section Recorded

variable {φ : Removal → Prop} {s s' : Registry} {t : LogoutType}

/-- What is recorded of the sessions that have been removed is what is recorded of the removals. -/
theorem Removes.record {l : List String} (h : Removes s l t s') :
  ∃ s₁, exec (recordLogoutSession l t) s' = (.ok (), s₁) ∧ Ledger.Moves φ s.ledger s₁.ledger
  := by
  obtain ⟨d, hd, hentry⟩ := h
  refine ⟨_, rfl, .single ?_⟩
  have hrecord : (Raise.after (recordLogoutSession l t) s').ledger = s'.ledger.record d := by
    unfold Ledger.record
    rw [hentry, List.foldl_map]
    rfl
  have hmove : Ledger.Move φ s.ledger (s'.ledger.record d) := .logged hd
  rwa [← hrecord] at hmove

theorem removes_deleteWhere (sh : Shelf) (t : LogoutType) (gone : Session → Bool)
    (s : Registry) :
  ∃ deleted s', exec (deleteWhere sh t gone) s = (.ok deleted, s') ∧ Removes s deleted t s'
  := by
  refine ⟨_, _, rfl, _, takes_setSessions _ t List.filter_sublist ?_, ?_⟩
  · rw [Multiset.coe_add, Multiset.coe_eq_coe]
    have hsplit := (List.filter_append_perm gone (s.sessions sh)).map (·.sessionId)
    rw [List.map_append] at hsplit
    apply hsplit.symm.trans
    apply List.perm_append_comm.trans
    exact List.Perm.append_left _ ((List.reverse_perm _).map _).symm
  · rw [List.map_map]
    rfl

theorem removes_deleteFrom (t : LogoutType) (gone : Session → Bool) (l : List Shelf)
    (s : Registry) :
  ∃ deleted s', exec (deleteFrom t gone l) s = (.ok deleted, s') ∧ Removes s deleted t s'
  := by
  induction l generalizing s with
  | nil => exact ⟨[], s, rfl, .nil s t⟩
  | cons sh l ih =>
    obtain ⟨deleted, s₁, hexec, hremoves⟩ := removes_deleteWhere sh t gone s
    obtain ⟨others, s₂, hexec', hremoves'⟩ := ih s₁
    refine ⟨deleted ++ others, s₂, ?_, hremoves.trans hremoves'⟩
    unfold deleteFrom
    rw [exec_bind_ok hexec, exec_bind_ok hexec', exec_pure]

theorem exec_deleteAndRecord (l : List Shelf) (t : LogoutType) (gone : Session → Bool)
    (s : Registry) :
  ∃ s', exec (deleteAndRecord l t gone) s = (.ok (), s') ∧ Ledger.Moves φ s.ledger s'.ledger
  := by
  obtain ⟨deleted, s₁, hexec, hremoves⟩ := removes_deleteFrom t gone l s
  obtain ⟨s₂, hexec', hmoves⟩ := hremoves.record (φ := φ)
  refine ⟨s₂, ?_, hmoves⟩
  unfold deleteAndRecord
  rw [exec_bind_ok hexec, hexec']

/-- The ledger has made moves. -/
def Moved (φ : Removal → Prop) (L : Ledger) (s : Registry) : Prop := Ledger.Moves φ L s.ledger

theorem keeps_moved {m : RegistryM Unit} {L : Ledger}
    (h : ∀ s, ∃ r s', exec m s = (r, s') ∧ Ledger.Moves φ s.ledger s'.ledger) :
  Keeps (Moved φ L) m
  := by
  intro s hs
  obtain ⟨r, s', hexec, hmoves⟩ := h s
  have hmoved : Moved φ L s' := hs.trans hmoves
  rw [hexec]
  cases r <;> exact hmoved

theorem keeps_deleteAndRecord {L : Ledger} (l : List Shelf) (t : LogoutType)
    (gone : Session → Bool) :
  Keeps (Moved φ L) (deleteAndRecord l t gone)
  := by
  apply keeps_moved
  intro s
  obtain ⟨s', hexec, hmoves⟩ := exec_deleteAndRecord (φ := φ) l t gone s
  exact ⟨_, s', hexec, hmoves⟩

end Recorded

/-! ## Removing one session -/

section Delete

variable {φ : Removal → Prop} {s : Registry} {p : RegistryPlatform}

theorem cli_of_mem_shelves {k : SessionKind} {sh : Shelf} (h : sh ∈ k.shelves) :
  sh = .cli ↔ k = .cli
  := by
  cases k with
  | ordinary t =>
    obtain rfl := List.mem_singleton.mp h
    simp
  | cli =>
    obtain rfl := List.mem_singleton.mp h
    simp
  | interChassis =>
    constructor
    · rintro rfl
      revert h
      decide
    · intro hk
      cases hk

/-- Deleting an inner session either raises an error or removes one with the identifier. -/
theorem exec_deleteInner (order : Redfish.PairsOrder) (c : Redfish.InnerCollection)
    (sessionId : String) :
  (∃ e, exec (Redfish.delete order sessionId) ⟨[], c, 0⟩ = (.error e, ⟨[], c, 0⟩)) ∨
    ∃ c', exec (Redfish.delete order sessionId) ⟨[], c, 0⟩ = (.ok (), ⟨[], c', 0⟩)
      ∧ (innerIds c : Multiset String) = innerIds c' + {sessionId}
  := by
  have hfound : Redfish.State.getSessionBySessionId ⟨[], c, 0⟩ order sessionId
      = (order.types.find? fun t => (c.get t).any fun x => x.sessionId = sessionId).map .inner :=
    rfl
  unfold Redfish.delete
  rw [exec_bind_ok (exec_get _), hfound]
  cases hfind : order.types.find? fun t => (c.get t).any fun x => x.sessionId = sessionId with
  | none => exact Or.inl ⟨_, rfl⟩
  | some t =>
    rw [Option.map_some]
    dsimp only
    have hx := List.find?_some hfind
    obtain ⟨x, hget, hid⟩ : ∃ x, c.get t = some x ∧ x.sessionId = sessionId := by
      simpa [Option.any_eq_true] using hx
    have hput : (innerIds c : Multiset String) = innerIds (c.put t none) + {sessionId} := by
      have hput := innerIds_put c t none
      rw [hget] at hput
      simpa [hid] using hput.symm
    cases t with
    | bma =>
      rw [Redfish.InnerCollection.removeAt_bma]
      exact Or.inr ⟨_, rfl, hput⟩
    | hmm =>
      rw [Redfish.InnerCollection.removeAt_hmm]
      by_cases hbma : c.bma.isSome = true
      · rw [if_pos hbma]
        exact Or.inl ⟨_, rfl⟩
      · rw [if_neg hbma]
        exact Or.inr ⟨_, rfl, hput⟩

theorem exec_onInner (m : Redfish.SessionM Unit) (s : Registry) :
  exec (onInner m) s = ((exec m ⟨[], s.inner, 0⟩).1.mapError innerErr,
    { s with inner := (Raise.after m ⟨[], s.inner, 0⟩).inner })
  := by
  unfold onInner
  rw [exec_bind_ok (exec_get s), exec_bind_ok (exec_modify _ s), exec_outcome]
  rfl

/-- What is erased from a list is one session with the identifier. -/
theorem ids_eraseP {l : List Session} {sessionId : String}
    (h : l.any (fun x => sessionId = x.sessionId) = true) :
  (l.map (·.sessionId) : Multiset String)
    = (l.eraseP fun x => sessionId = x.sessionId).map (·.sessionId) + {sessionId}
  := by
  obtain ⟨x, hx, hid⟩ := List.any_eq_true.mp h
  obtain ⟨y, l₁, l₂, _, hy, hsplit, herase⟩ :=
    List.exists_of_eraseP (p := fun x => sessionId = x.sessionId) hx hid
  have hid : y.sessionId = sessionId := (of_decide_eq_true hy).symm
  rw [herase, hsplit, ← Multiset.coe_singleton, Multiset.coe_add, Multiset.coe_eq_coe,
    List.map_append, List.map_append, List.map_cons, hid]
  exact List.perm_middle.trans (List.perm_append_singleton _ _).symm

/-- A removal either raises an error and leaves everything as it is, or removes one session with
the identifier. -/
theorem delete_cases (p : RegistryPlatform) (k : SessionKind) (sessionId : String)
    (t : LogoutType) (s : Registry) :
  (∃ e, exec (delete p k sessionId t) s = (.error e, s)) ∨
    ∃ s', exec (delete p k sessionId t) s = (.ok (), s')
      ∧ Ledger.Takes [⟨k = .cli, sessionId, t⟩] s.ledger s'.ledger
      ∧ ∀ sh, s'.sessions sh ⊆ s.sessions sh
  := by
  unfold delete
  rw [exec_bind_ok (exec_get s)]
  cases hplace : s.place k sessionId with
  | some sh =>
    have hcli := cli_of_mem_shelves (List.mem_of_find?_eq_some hplace)
    have hany : (s.sessions sh).any (fun x => sessionId = x.sessionId) = true :=
      List.find?_some (p := fun sh => (s.sessions sh).any fun x => sessionId = x.sessionId) hplace
    refine Or.inr ⟨_, rfl, ?_, ?_⟩
    · have htakes := takes_setSessions [sessionId] t List.eraseP_sublist (ids_eraseP hany)
      simpa only [hcli, List.map_cons, List.map_nil] using htakes
    · intro sh'
      rw [sessions_note]
      by_cases hsh : sh' = sh
      · subst hsh
        rw [sessions_setSessions]
        exact List.eraseP_subset
      · rw [sessions_setSessions_ne _ _ hsh]
        exact List.Subset.refl _
  | none =>
    by_cases hk : k = .ordinary .redfish
    · subst hk
      rw [if_pos rfl]
      have hinner := exec_onInner (Redfish.delete p.innerOrder sessionId) s
      unfold Raise.after at hinner
      rcases exec_deleteInner p.innerOrder s.inner sessionId with ⟨e, hexec⟩ | ⟨c, hexec, hids⟩
      · rw [hexec] at hinner
        exact Or.inl ⟨innerErr e, exec_bind_error hinner⟩
      · rw [hexec] at hinner
        refine Or.inr ⟨_, (exec_bind_ok hinner).trans (exec_modify _ _), ?_, ?_⟩
        · refine ⟨?_, List.Sublist.refl _, ?_, rfl, rfl⟩
          · change (_ : Multiset String) + innerIds s.inner = (_ + innerIds c) + _
            rw [hids, add_assoc]
            rfl
          · intro d hd hcli
            obtain rfl := List.mem_singleton.mp hd
            exact absurd hcli (by simp)
        · intro sh
          cases sh <;> exact List.Subset.refl _
    · rw [if_neg hk]
      exact Or.inl ⟨_, rfl⟩

theorem keeps_deleteSession {L : Ledger} (sessionId : String) (t : LogoutType) :
  Keeps (Moved φ L) (deleteSession p sessionId t)
  := by
  apply keeps_moved
  intro s
  unfold deleteSession
  rw [exec_bind_ok (exec_get s)]
  cases s.getSessionBySessionId p sessionId with
  | none => exact ⟨_, s, rfl, .refl⟩
  | some k =>
    dsimp only
    rcases delete_cases p k sessionId t s with ⟨e, hexec⟩ | ⟨s₁, hexec, htakes, _⟩
    · rw [exec_bind_error hexec]
      exact ⟨_, s, rfl, .refl⟩
    · have hremoves : Removes s [sessionId] t s₁ := ⟨_, htakes, rfl⟩
      obtain ⟨s₂, hexec', hmoves⟩ := hremoves.record (φ := φ)
      rw [exec_bind_ok hexec, hexec']
      exact ⟨_, s₂, rfl, hmoves⟩

end Delete

/-! ## Removals that are not recorded -/

section Unrecorded

variable {φ : Removal → Prop} {s₀ : Registry} {p : RegistryPlatform} {t : LogoutType}

/-- The ledger has made moves, and no list has got a session. -/
def Reaches (φ : Removal → Prop) (s₀ s : Registry) : Prop :=
  Ledger.Moves φ s₀.ledger s.ledger ∧ ∀ sh, s.sessions sh ⊆ s₀.sessions sh

theorem reaches_refl (s : Registry) :
  Reaches φ s s
  := ⟨.refl, fun _ => List.Subset.refl _⟩

theorem keeps_deleteAllOf {k : SessionKind} {sh : Shelf} {meant : Session → Except RegistryErr Bool}
    (hφ : ∀ x ∈ s₀.sessions sh, meant x = .ok true → φ ⟨k = .cli, x.sessionId, t⟩) :
  Keeps (Reaches φ s₀) (deleteAllOf p k t meant sh)
  := by
  apply Sweep.keeps_sweep
  rintro x hmeant s ⟨⟨hmoves, hsub⟩, hx⟩
  rcases delete_cases p k x.sessionId t s with ⟨e, hexec⟩ | ⟨s₁, hexec, htakes, hsub₁⟩
  · rw [hexec]
    exact ⟨hmoves, hsub⟩
  · rw [hexec]
    refine ⟨hmoves.tail (.unlogged htakes ?_), fun sh => List.Subset.trans (hsub₁ sh) (hsub sh)⟩
    intro d hd
    obtain rfl := List.mem_singleton.mp hd
    exact hφ x (hsub sh hx) hmeant

theorem mem_shelves {k : SessionKind} {sh : Shelf} :
  sh ∈ p.shelves k ↔ sh ∈ k.shelves
  := by
  unfold RegistryPlatform.shelves
  split <;> simp

theorem keeps_deleteAllOfKind {k : SessionKind} {ipType : IpType}
    (hφ : ∀ sh ∈ k.shelves, ∀ x ∈ s₀.sessions sh,
      ClearKvm.hasType p.toPlatform ipType x = true → φ ⟨sh = .cli, x.sessionId, t⟩) :
  Keeps (Reaches φ s₀) (deleteAllOfKind p t ipType k)
  := by
  apply Keeps.forM
  intro sh hsh
  have hmem := mem_shelves.mp hsh
  apply keeps_deleteAllOf
  intro x hx hmeant
  have hφx := hφ sh hmem x hx (Except.ok.inj hmeant)
  rwa [decide_eq_decide.mpr (cli_of_mem_shelves hmem)] at hφx

/-- A session of a list is one of those that `delete_all_session` removes. -/
def isCleared {Dn : Type} (p : RegistryPlatform) (w : World Dn) (ctx : Ctx)
    (k : Option SessionKind) (ipType : IpType) (sh : Shelf) (x : Session) : Bool :=
  match k with
  | none => ClearKvm.hasType p.toPlatform ipType x
  | some (.ordinary .kvm) =>
    sh = .ordinary .kvm && ipType = .all && (checkSystemId p.toPlatform w ctx).isOk
  | some k => sh ∈ k.shelves && ClearKvm.hasType p.toPlatform ipType x

/-- All collections but that of KVM have the same loop. -/
theorem keeps_deleteAllOfKind_of_ne {Dn : Type} {w : World Dn} {ctx : Ctx} {k : SessionKind}
    {ipType : IpType} (hk : k ≠ .ordinary .kvm)
    (hφ : ∀ sh, ∀ x ∈ s₀.sessions sh, isCleared p w ctx (some k) ipType sh x = true →
      φ ⟨sh = .cli, x.sessionId, t⟩) :
  Keeps (Reaches φ s₀) (deleteAllOfKind p t ipType k)
  := by
  apply keeps_deleteAllOfKind
  intro sh hsh x hx htype
  apply hφ sh x hx
  unfold isCleared
  split
  · contradiction
  · rename_i heq
    exact absurd (Option.some.inj heq) hk
  · rename_i heq
    cases heq
    rw [htype, decide_eq_true hsh]
    rfl

theorem keeps_deleteAllSession {Dn : Type} {w : World Dn} {ctx : Ctx} {k : Option SessionKind}
    {ipType : IpType}
    (hφ : ∀ sh, ∀ x ∈ s₀.sessions sh, isCleared p w ctx k ipType sh x = true →
      φ ⟨sh = .cli, x.sessionId, t⟩) :
  Keeps (Reaches φ s₀) (deleteAllSession p w ctx t k ipType)
  := by
  unfold deleteAllSession
  split
  · apply Keeps.forM
    intro k _
    apply keeps_deleteAllOfKind
    intro sh _ x hx htype
    exact hφ sh x hx htype
  · cases hcheck : checkSystemId p.toPlatform w ctx with
    | error e => exact Spec.outcome_bind (fun _ h => h) fun a ha => by cases ha
    | ok systemId =>
      apply Spec.outcome_bind fun _ h => h
      intro a ha
      obtain rfl : systemId = a := Except.ok.inj ha
      apply keeps_deleteAllOf
      intro x hx hmeant
      apply hφ (.ordinary .kvm) x hx
      by_cases hall : ipType = .all
      · subst hall
        unfold isCleared
        rw [hcheck]
        rfl
      · rw [ClearKvm.isMatch_of_ne_all hall] at hmeant
        cases hmeant
  · rename_i k hk
    exact keeps_deleteAllOfKind_of_ne (fun h => hk h) hφ

/-- A session of the command line that is removed on the way to an error is not recorded. -/
theorem exec_cliDeleteRemoteSession (hcli : ∀ d : Removal, d.isCli = true → φ d) (e : Processes)
    (controllerId innerId : Option ℕ) (l : List LdapUser) (s : Registry) :
  (∃ deleted s', exec (cliDeleteRemoteSession p e t controllerId innerId l) s = (.ok deleted, s')
      ∧ Removes s deleted t s') ∨
    ∃ err s', exec (cliDeleteRemoteSession p e t controllerId innerId l) s = (.error err, s')
      ∧ Ledger.Moves φ s.ledger s'.ledger
  := by
  induction l generalizing s with
  | nil => exact Or.inl ⟨[], s, rfl, .nil s t⟩
  | cons u l ih =>
    unfold cliDeleteRemoteSession
    cases (e.parent u.uid).filter fun _ => isUserOf controllerId innerId u with
    | none => exact ih s
    | some ppid =>
      dsimp only
      rcases delete_cases p .cli ("cli" ++ ppid) t s with ⟨err, hexec⟩ | ⟨s₁, hexec, htakes, _⟩
      · rw [exec_bind_error hexec]
        exact Or.inr ⟨err, s, rfl, .refl⟩
      · rw [exec_bind_ok hexec]
        rcases ih s₁ with ⟨others, s₂, hexec', hremoves⟩ | ⟨err, s₂, hexec', hmoves⟩
        · rw [exec_bind_ok hexec', exec_pure]
          have hone : Removes s ["cli" ++ ppid] t s₁ := ⟨_, htakes, rfl⟩
          exact Or.inl ⟨_, s₂, rfl, hone.trans hremoves⟩
        · rw [exec_bind_error hexec']
          refine Or.inr ⟨err, s₂, rfl, hmoves.head (.unlogged htakes ?_)⟩
          intro d hd
          obtain rfl := List.mem_singleton.mp hd
          exact hcli _ rfl

theorem keeps_deleteRemoteSession {L : Ledger} (hcli : ∀ d : Removal, d.isCli = true → φ d)
    (e : Processes) (controllerId innerId : Option ℕ) :
  Keeps (Moved φ L) (deleteRemoteSession p e controllerId innerId t)
  := by
  apply Keeps.forM
  intro k _
  by_cases hk : k = .cli
  · rw [if_pos hk]
    apply keeps_moved
    intro s
    rw [exec_bind_ok (exec_get s)]
    rcases exec_cliDeleteRemoteSession (p := p) (t := t) hcli e controllerId innerId
      s.ldapAuthedAccounts s with ⟨deleted, s₁, hexec, hremoves⟩ | ⟨err, s₁, hexec, hmoves⟩
    · obtain ⟨s₂, hexec', hmoves⟩ := hremoves.record (φ := φ)
      rw [exec_bind_ok hexec, hexec']
      exact ⟨_, s₂, rfl, hmoves⟩
    · rw [exec_bind_error hexec]
      exact ⟨_, s₁, rfl, hmoves⟩
  · rw [if_neg hk]
    exact keeps_deleteAndRecord _ _ _

end Unrecorded

end Registry

end Sessions

end BmcAccount
