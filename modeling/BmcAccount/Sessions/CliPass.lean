import BmcAccount.Lib.LuaNumber
import BmcAccount.Lib.Reconcile
import BmcAccount.Sessions.Console
import BmcAccount.Sessions.Removals

/-!
# The pass over the users of the command line

`update_cli_online_session` compares the sessions of the command line with the users that are
online. A session whose process is gone is removed, and a process without a session gets one. The
user of each process is at hand where the two are compared, but only the identifiers are. So a
process that has got the identifier of an earlier one between two passes keeps the session of the
earlier user.

`mirrors_iff` says when the sessions are those of the users that are online.
-/

namespace BmcAccount

namespace Sessions

open Raise

/-! ## The identifiers -/

theorem cliId_injective :
  Function.Injective cliId
  := by
  intro m n h
  have htext : m.repr = n.repr := (String.append_right_inj "cli").mp h
  rw [Nat.repr_eq_ofList_toDigits, Nat.repr_eq_ofList_toDigits] at htext
  have hint : (m : ℤ) = n := LuaNumber.intText_injective (String.ofList_injective htext)
  exact Int.ofNat.inj hint

/-- What is seen of a session: the identifier, the user and the address. -/
def Session.shown (x : Session) : String × String × String := (x.sessionId, x.username, x.ip)

/-- What is to be seen of the session of a user. -/
def OnlineUser.shown (o : OnlineUser) : String × String × String := (o.sessionId, o.name, o.address)

theorem OnlineUsers.nodup_sessionId (l : OnlineUsers) :
  (l.users.map OnlineUser.sessionId).Nodup
  := by
  have hmap : l.users.map OnlineUser.sessionId = (l.users.map (·.pid)).map cliId := by
    rw [List.map_map]
    rfl
  rw [hmap]
  exact l.nodup.map cliId_injective

namespace Registry

variable {Dn : Type} {p : RegistryPlatform} {w : World Dn} {e : Processes} {φ : Removal → Prop}
  {s : Registry}

/-! ## Removing a session of the command line -/

theorem mem_live_of_mem_innerIds {i : String} (hi : i ∈ innerIds s.inner) :
  i ∈ s.live
  := Multiset.mem_add.mpr (Or.inr (Multiset.mem_coe.mpr hi))

/-- What is found in another collection than that of the command line is not of the command
line. -/
theorem mem_live_of_found {k : SessionKind} (hk : k ≠ .cli) {i : String}
    (h : ((s.place k i).isSome || (k = .ordinary .redfish && s.hasInner i)) = true) :
  i ∈ s.live
  := by
  rcases Bool.or_eq_true_iff.mp h with h | h
  · obtain ⟨sh, hsh⟩ := Option.isSome_iff_exists.mp h
    have hcli := (cli_of_mem_shelves (List.mem_of_find?_eq_some hsh)).not.mpr hk
    have hany := List.find?_some (p := fun sh => (s.sessions sh).any fun x => i = x.sessionId) hsh
    obtain ⟨x, hx, hid⟩ := List.any_eq_true.mp hany
    apply mem_live_of_mem_ids hcli
    rw [of_decide_eq_true hid]
    exact List.mem_map_of_mem hx
  · rw [Bool.and_eq_true] at h
    apply mem_live_of_mem_innerIds
    have hfound : ([Redfish.InnerType.hmm, .bma].find? fun t =>
        (s.inner.get t).any fun x => x.sessionId = i).isSome = true := by
      have hinner := h.2
      unfold hasInner Redfish.State.getSessionBySessionId at hinner
      simpa [Redfish.PairsOrder.types] using hinner
    obtain ⟨t, _, ht⟩ := List.find?_isSome.mp hfound
    obtain ⟨x, hx, hid⟩ : ∃ x, s.inner.get t = some x ∧ x.sessionId = i := by
      simpa [Option.any_eq_true] using ht
    unfold innerIds
    rw [← hid]
    apply List.mem_map_of_mem
    cases t with
    | hmm => exact List.mem_append_left _ (Option.mem_toList.mpr hx)
    | bma => exact List.mem_append_right _ (Option.mem_toList.mpr hx)

/-- A session of the command line is found in its collection. -/
theorem getSessionBySessionId_cli (hs : s.ledger.Named) {x : Session} (hx : x ∈ s.cli) :
  s.getSessionBySessionId p x.sessionId = some .cli ∧ s.place .cli x.sessionId = some .cli
  := by
  have hplace : s.place .cli x.sessionId = some .cli := by
    have hany : (s.sessions .cli).any (fun y => x.sessionId = y.sessionId) = true :=
      List.any_eq_true.mpr ⟨x, hx, decide_eq_true rfl⟩
    unfold place SessionKind.shelves
    rw [List.find?_singleton, if_pos hany]
  refine ⟨?_, hplace⟩
  have hsome : (s.getSessionBySessionId p x.sessionId).isSome = true := by
    apply List.find?_isSome.mpr
    refine ⟨.cli, p.kinds_complete .cli, ?_⟩
    rw [hplace]
    rfl
  obtain ⟨k, hk⟩ := Option.isSome_iff_exists.mp hsome
  have hcli : k = .cli := by
    by_contra hne
    have hlive := mem_live_of_found hne (List.find?_some (p := fun k =>
      (s.place k x.sessionId).isSome
        || (k = .ordinary .redfish && s.hasInner x.sessionId)) hk)
    apply hs.used x.sessionId (Multiset.mem_add.mpr (Or.inl hlive))
    exact hs.cli _ (List.mem_map_of_mem hx)
  rw [hk, hcli]

/-- Such a session is removed without an error. -/
theorem exec_deleteSession_cli (hs : s.ledger.Named) {x : Session} (hx : x ∈ s.cli)
    (t : LogoutType) :
  ∃ s', exec (deleteSession p x.sessionId t) s = (.ok (), s')
    ∧ s'.cli = s.cli.eraseP (fun y => x.sessionId = y.sessionId)
    ∧ Ledger.Moves φ s.ledger s'.ledger
  := by
  have hfound := getSessionBySessionId_cli (p := p) hs hx
  have hdelete : exec (delete p .cli x.sessionId t) s
      = (.ok (), (s.setSessions .cli (s.cli.eraseP fun y => x.sessionId = y.sessionId)).note true
        [x.sessionId] t) := by
    unfold delete
    rw [exec_bind_ok (exec_get s), hfound.2]
    rfl
  have hkeep : Moved φ s.ledger (Raise.after (deleteSession p x.sessionId t) s) := by
    apply (keeps_deleteSession x.sessionId t).after
    exact Relation.ReflTransGen.refl
  unfold deleteSession Raise.after at *
  rw [exec_bind_ok (exec_get s), hfound.1] at *
  dsimp only at *
  rw [exec_bind_ok hdelete] at *
  exact ⟨_, rfl, rfl, hkeep⟩

/-! ## The first loop -/

/-- A session whose identifier is not in the table is removed, wherever it is. -/
theorem exec_reconcile_none {x : Session} {done todo : List Session} {cur : String → Option String}
    (hs : s.ledger.Named) (hcli : s.cli = done ++ x :: todo) (hcur : cur x.sessionId = none) :
  ∃ s', exec (reconcile p cur x) s = (.ok cur, s') ∧ s'.cli = done ++ todo
    ∧ Ledger.Moves φ s.ledger s'.ledger
  := by
  obtain ⟨s', hexec, hcli', hmoves⟩ :=
    exec_deleteSession_cli (p := p) (φ := φ) hs (x := x) (by rw [hcli]; simp) .sessionLogout
  have hbefore : ∀ y ∈ done, ¬ decide (x.sessionId = y.sessionId) = true := by
    intro y hy hsame
    have hnodup : ((done ++ x :: todo).map (·.sessionId)).Nodup := by
      rw [← hcli]
      exact hs.nodup
    rw [List.map_append, List.map_cons, List.nodup_append'] at hnodup
    apply hnodup.2.2 (List.mem_map_of_mem hy)
    rw [← of_decide_eq_true hsame]
    exact List.mem_cons_self
  rw [hcli, List.eraseP_append_right _ hbefore, List.eraseP_cons_of_pos (by simp)] at hcli'
  refine ⟨s', ?_, hcli', hmoves⟩
  unfold reconcile
  rw [if_pos hcur, exec_bind_ok hexec, exec_pure]

/-- The identifier of any other session is taken from the table. -/
theorem exec_reconcile_some {x : Session} {cur : String → Option String} {name : String}
    (hcur : cur x.sessionId = some name) (s : Registry) :
  exec (reconcile p cur x) s = (.ok (Function.update cur x.sessionId none), s)
  := by
  unfold reconcile
  rw [if_neg (by rw [hcur]; exact Option.some_ne_none name), exec_pure]

/-- The sessions whose identifier is still in the table stay, and their identifiers are taken from
it. -/
theorem exec_reconcile (todo done : List Session) (cur : String → Option String)
    (hs : s.ledger.Named) (hcli : s.cli = done ++ todo) :
  ∃ s', exec (todo.foldlM (reconcile p) cur) s
      = (.ok (fun i => if i ∈ todo.map (·.sessionId) then none else cur i), s')
    ∧ s'.cli = done ++ todo.filter (fun x => (cur x.sessionId).isSome)
    ∧ Ledger.Moves φ s.ledger s'.ledger
  := by
  induction todo generalizing done cur s with
  | nil => exact ⟨s, rfl, hcli, .refl⟩
  | cons x todo ih =>
    rw [List.foldlM_cons]
    cases hcur : cur x.sessionId with
    | none =>
      obtain ⟨s₁, hexec, hcli₁, hmoves⟩ := exec_reconcile_none (p := p) (φ := φ) hs hcli hcur
      obtain ⟨s₂, hexec', hcli₂, hmoves'⟩ := ih done cur (hs.moves hmoves) hcli₁
      refine ⟨s₂, ?_, ?_, hmoves.trans hmoves'⟩
      · rw [exec_bind_ok hexec, hexec']
        congr 2
        funext i
        by_cases hi : i = x.sessionId
        · simp [hi, hcur]
        · simp [hi]
      · rw [hcli₂, List.filter_cons_of_neg (by simp [hcur])]
    | some name =>
      obtain ⟨s₂, hexec', hcli₂, hmoves'⟩ :=
        ih (done ++ [x]) (Function.update cur x.sessionId none) hs (by rw [hcli]; simp)
      refine ⟨s₂, ?_, ?_, hmoves'⟩
      · rw [exec_bind_ok (exec_reconcile_some hcur s), hexec']
        congr 2
        funext i
        by_cases hi : i = x.sessionId
        · simp [hi]
        · simp [hi, Function.update_of_ne]
      · have hnodup : ((x :: todo).map (·.sessionId)).Nodup := by
          have hall : (s.cli.map (·.sessionId)).Nodup := hs.nodup
          rw [hcli, List.map_append] at hall
          exact hall.of_append_right
        rw [List.map_cons, List.nodup_cons] at hnodup
        have hfilter : todo.filter (fun y =>
              (Function.update cur x.sessionId none y.sessionId).isSome)
            = todo.filter fun y => (cur y.sessionId).isSome := by
          apply List.filter_congr
          intro y hy
          have hne : y.sessionId ≠ x.sessionId := fun h => hnodup.1 (h ▸ List.mem_map_of_mem hy)
          rw [Function.update_of_ne hne]
        rw [hcli₂, hfilter, List.filter_cons_of_pos (by simp [hcur]), List.append_assoc]
        rfl

theorem isSome_cliCurSession (users : List OnlineUser) (i : String) :
  (cliCurSession users i).isSome = true ↔ i ∈ users.map OnlineUser.sessionId
  := by
  unfold cliCurSession
  induction users using List.reverseRecOn with
  | nil => simp
  | append_singleton users o ih =>
    rw [List.foldl_append, List.foldl_cons, List.foldl_nil, List.map_append, List.mem_append]
    by_cases hi : i = o.sessionId
    · simp [hi]
    · rw [Function.update_of_ne hi, ih]
      simp [hi]

/-! ## The second loop -/

/-- The privileges of a user of the command line are known. -/
def knowsUser (w : World Dn) (e : Processes) (o : OnlineUser) : Bool :=
  w.knowsPrivileges (cliAccount w e o).1

theorem userName_cliAccount (w : World Dn) (e : Processes) (o : OnlineUser) :
  (cliAccount w e o).1.userName = o.name
  := by
  unfold cliAccount
  cases ha : w.getAccountByName o.name with
  | none => rfl
  | some a =>
    have hname := List.find?_some (p := fun a : CachedAccount => a.info.userName = o.name) ha
    exact of_decide_eq_true hname

theorem isSome_cliSession (o : OnlineUser) :
  (cliSession p w e o).isSome = knowsUser w e o
  := by
  unfold cliSession knowsUser
  rw [Option.isSome_map, isSome_newSessionObject]
  rfl

/-- The session of a user shows the user. -/
theorem shown_of_cliSession {o : OnlineUser} {x : Session} (h : cliSession p w e o = some x) :
  x.shown = o.shown
  := by
  unfold cliSession newSessionObject at h
  rw [Option.map_map] at h
  obtain ⟨privilege, _, rfl⟩ := Option.map_eq_some_iff.mp h
  unfold Session.shown OnlineUser.shown
  rw [← userName_cliAccount w e o]
  rfl

theorem exec_cliCreate_none {o : OnlineUser} (h : cliSession p w e o = none) (s : Registry) :
  exec (cliCreate p w e o) s = (.error (.service .internal), s)
  := by
  unfold cliCreate
  rw [h]
  rfl

theorem exec_cliCreate_some {o : OnlineUser} {x : Session} (h : cliSession p w e o = some x)
    (s : Registry) :
  exec (cliCreate p w e o) s = (.ok (), { s with cli := s.cli ++ [x] })
  := by
  unfold cliCreate
  rw [h]
  rfl

theorem ids_cli_concat (s : Registry) (x : Session) :
  ({ s with cli := s.cli ++ [x] } : Registry).ids .cli = s.ids .cli ++ [x.sessionId]
  := by
  change (s.cli ++ [x]).map _ = _
  rw [List.map_append]
  rfl

/-- A process without a session gets one. -/
theorem move_cli_concat {o : OnlineUser} {x : Session} (hid : x.sessionId = o.sessionId)
    (hnew : o.sessionId ∉ s.ids .cli) :
  Ledger.Move φ s.ledger ({ s with cli := s.cli ++ [x] } : Registry).ledger
  := by
  have hledger : ({ s with cli := s.cli ++ [x] } : Registry).ledger
      = s.ledger.enterCli o.sessionId := by
    apply Ledger.ext
    · exact live_congr rfl fun sh hsh => by cases sh <;> first | rfl | exact absurd rfl hsh
    · exact (ids_cli_concat s x).trans (by rw [hid]; rfl)
    · rfl
    · rfl
  rw [hledger]
  exact .enterCli hnew

/-- Sessions are created until there is a user whose privileges are not known. -/
theorem exec_creations (new : OnlineUser → Bool) (users : List OnlineUser)
    (hnodup : (users.map OnlineUser.sessionId).Nodup)
    (hnew : ∀ o ∈ users, new o = true → o.sessionId ∉ s.ids .cli) :
  ∃ r s', exec (users.forM fun o => onlyIf (new o) (cliCreate p w e o)) s = (r, s')
    ∧ s'.cli.map Session.shown = s.cli.map Session.shown
      ++ ((users.filter new).takeWhile (knowsUser w e)).map OnlineUser.shown
    ∧ Ledger.Moves φ s.ledger s'.ledger
  := by
  induction users generalizing s with
  | nil => exact ⟨_, s, rfl, by simp, .refl⟩
  | cons o users ih =>
    rw [List.map_cons, List.nodup_cons] at hnodup
    rw [exec_forM_cons]
    cases ho : new o with
    | false =>
      rw [exec_bind_ok (exec_onlyIf_false _ s), List.filter_cons_of_neg (by simp [ho])]
      exact ih hnodup.2 fun o' ho' => hnew o' (List.mem_cons_of_mem o ho')
    | true =>
      rw [List.filter_cons_of_pos ho]
      have hknows := isSome_cliSession (p := p) (w := w) (e := e) o
      cases hx : cliSession p w e o with
      | none =>
        rw [hx] at hknows
        have hexec : exec (onlyIf true (cliCreate p w e o)) s = (.error (.service .internal), s) :=
          exec_cliCreate_none hx s
        rw [exec_bind_error hexec, List.takeWhile_cons_of_neg (by rw [← hknows]; simp)]
        exact ⟨_, s, rfl, by simp, .refl⟩
      | some x =>
        rw [hx] at hknows
        have hexec : exec (onlyIf true (cliCreate p w e o)) s
            = (.ok (), { s with cli := s.cli ++ [x] }) := exec_cliCreate_some hx s
        have hshown : x.shown = o.shown := shown_of_cliSession hx
        have hid : x.sessionId = o.sessionId := congrArg Prod.fst hshown
        have hnew' : ∀ o' ∈ users, new o' = true →
            o'.sessionId ∉ ({ s with cli := s.cli ++ [x] } : Registry).ids .cli := by
          intro o' ho' hnew'
          rw [ids_cli_concat, hid, List.mem_append, List.mem_singleton]
          rintro (hold | hsame)
          · exact hnew o' (List.mem_cons_of_mem o ho') hnew' hold
          · exact hnodup.1 (hsame ▸ List.mem_map_of_mem ho')
        obtain ⟨r, s₂, hexec', hcli, hmoves⟩ := ih hnodup.2 hnew'
        refine ⟨r, s₂, ?_, ?_, hmoves.head (move_cli_concat hid (hnew o List.mem_cons_self ho))⟩
        · rw [exec_bind_ok hexec, hexec']
        · rw [hcli, List.takeWhile_cons_of_pos (by rw [← hknows]; rfl), List.map_append,
            List.map_singleton, List.map_cons, hshown, List.append_assoc]
          rfl

/-! ## The pass -/

/-- What a pass does. It compares identifiers only. -/
theorem exec_updateCliOnlineSession (hs : s.ledger.Named) :
  ∃ r s', exec (updateCliOnlineSession p w e) s = (r, s')
    ∧ s'.cli.map Session.shown
      = Reconcile.result Session.shown OnlineUser.shown (knowsUser w e) s.cli e.online.users
    ∧ Ledger.Moves φ s.ledger s'.ledger
  := by
  have hload : exec (modify fun s : Registry => { s with ldapAuthedAccounts := e.authedLdapUsers }
      : RegistryM Unit) s = (.ok (), { s with ldapAuthedAccounts := e.authedLdapUsers }) := rfl
  obtain ⟨s₁, hexec, hcli, hmoves⟩ := exec_reconcile (p := p) (φ := φ)
    (s := { s with ldapAuthedAccounts := e.authedLdapUsers }) s.cli []
    (cliCurSession e.online.users) hs rfl
  have hkept : s₁.cli = Reconcile.kept Session.shown OnlineUser.shown s.cli e.online.users := by
    rw [hcli, List.nil_append]
    apply List.filter_congr
    intro x _
    rw [Bool.eq_iff_iff, decide_eq_true_iff]
    exact isSome_cliCurSession e.online.users x.sessionId
  have hleft (i : String) (hi : i ∈ e.online.users.map OnlineUser.sessionId) :
      (if i ∈ s.cli.map (·.sessionId) then none else cliCurSession e.online.users i).isSome
        = decide (i ∉ s.cli.map (·.sessionId)) := by
    by_cases hold : i ∈ s.cli.map (·.sessionId)
    · simp [hold]
    · simp [hold, (isSome_cliCurSession e.online.users i).mpr hi]
  obtain ⟨r, s₂, hexec', hcli', hmoves'⟩ := exec_creations (p := p) (w := w) (e := e) (φ := φ)
    (s := s₁) (fun o => (if o.sessionId ∈ s.cli.map (·.sessionId) then none
      else cliCurSession e.online.users o.sessionId).isSome)
    e.online.users e.online.nodup_sessionId (by
      intro o ho hnew hmem
      rw [hleft o.sessionId (List.mem_map_of_mem ho), decide_eq_true_iff] at hnew
      have hsub : s₁.cli.map (·.sessionId) ⊆ s.cli.map (·.sessionId) := by
        rw [hcli]
        exact List.map_subset _ (List.filter_subset_self _)
      exact hnew (hsub hmem))
  have hmissing : (e.online.users.filter fun o =>
        (if o.sessionId ∈ s.cli.map (·.sessionId) then none
          else cliCurSession e.online.users o.sessionId).isSome)
      = Reconcile.missing Session.shown OnlineUser.shown s.cli e.online.users := by
    apply List.filter_congr
    intro o ho
    exact hleft o.sessionId (List.mem_map_of_mem ho)
  refine ⟨r, s₂, ?_, ?_, hmoves.trans hmoves'⟩
  · unfold updateCliOnlineSession
    rw [exec_bind_ok (exec_get s), exec_bind_ok hload, exec_bind_ok hexec, hexec']
  · rw [hcli', hkept, hmissing]
    rfl

end Registry

end Sessions

end BmcAccount
