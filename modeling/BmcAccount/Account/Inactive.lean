import BmcAccount.Account.Admin

/-!
# The sweep over inactive accounts

One pass disables the accounts that have been inactive for too long. It exempts the
emergency account, and an operable administrator when it is the only enabled
administrator. The enabled administrators are counted whether or not they can operate, so
an enabled administrator that cannot operate lets the last one that can be disabled.

The pass keeps an operable administrator in every order of visiting exactly when one of
them is not to be disabled, or all enabled administrators can operate.
-/

namespace BmcAccount

open Raise

/-- The account is one that the sweep disables unless it is exempt as an administrator. -/
structure Idle (env : Env) (cfg : Config) (id : ℕ) (a : Account) : Prop where
  due : a.data.inactiveStartTime + cfg.inactiveDaysThreshold * daySecondCount ≤ env.now
  notEmergency : id ≠ cfg.emergencyLoginAccountId
  writable : a.data.enabledWritable = true

/-! ## One account -/

/-- The sweep leaves an account as it is or disables it. -/
theorem Account.updateInactiveStatus_cases {env : Env} {cfg : Config} {only : Bool} {id : ℕ}
    {a a' : Account} (h : a.updateInactiveStatus env cfg only
      (cfg.inactiveDaysThreshold * daySecondCount) id = .ok a') :
  a' = a ∨
    (a' = a.markEnabled false ∧ Idle env cfg id a ∧ (only = true → a.isOperateAdmin = false))
  := by
  unfold Account.updateInactiveStatus at h
  split at h
  case h_2 =>
    cases h
    exact Or.inl rfl
  case h_1 hcls =>
    split_ifs at h with hen hex hdue
    · cases h
      exact Or.inl rfl
    · cases h
      exact Or.inl rfl
    · unfold Account.setEnabled at h
      rw [hcls] at h
      simp only [Bool.and_false, Bool.false_and, Bool.false_eq_true, if_false] at h
      split_ifs at h with hw
      cases h
      simp only [Bool.or_eq_true, decide_eq_true_eq, Bool.and_eq_true, not_or, not_and] at hex
      refine Or.inr ⟨rfl, ⟨hdue, hex.1, ?_⟩, fun honly => ?_⟩
      · simpa [Account.getPropertyWritable, hcls, Property.writable] using hw
      · simpa using hex.2 honly
    · cases h
      exact Or.inl rfl

/-- An idle operable administrator is disabled when there is another enabled one. -/
theorem Account.updateInactiveStatus_idle {env : Env} {cfg : Config} {id : ℕ} {a : Account}
    (hop : a.isOperateAdmin = true) (hidle : Idle env cfg id a) :
  a.updateInactiveStatus env cfg false (cfg.inactiveDaysThreshold * daySecondCount) id
    = .ok (a.markEnabled false)
  := by
  have hcls := Account.cls_of_isOperateAdmin hop
  have hen : a.data.enabled = true :=
    ((Account.checkIsEnabledAdmin_iff a).mp ((Account.isOperateAdmin_iff a).mp hop).1).2.2
  unfold Account.updateInactiveStatus Account.setEnabled
  simp [hcls, hen, hidle.due, hidle.notEmergency, Account.getPropertyWritable, Property.writable,
    hidle.writable]

theorem not_isEnabledAdmin_markEnabled (a : Account) :
  (a.markEnabled false).checkIsEnabledAdmin = false
  := by
  rw [Bool.eq_false_iff, Ne, Account.checkIsEnabledAdmin_iff]
  exact fun h => absurd h.2.2 Bool.false_ne_true

theorem not_isOperateAdmin_markEnabled (a : Account) :
  (a.markEnabled false).isOperateAdmin = false
  := by
  rw [Account.isOperateAdmin, not_isEnabledAdmin_markEnabled, Bool.false_and]

/-! ## What a pass keeps -/

/-- The states with the configuration `cfg` in which `I` holds. -/
def WithConfig (cfg : Config) (I : State → Prop) (s : State) : Prop :=
  s.config = cfg ∧ I s

/-- A step of the sweep keeps `I` if disabling an idle account does, where the account is
no operable administrator unless there are several enabled administrators. -/
theorem visitInactive_keeps {env : Env} {cfg : Config} {I : State → Prop} (id : ℕ)
    (hI : ∀ (s : State) (a : Account), s.config = cfg → I s → s.accounts.lookup id = some a →
      Idle env cfg id a → (s.enabledAdminNumber = 1 → a.isOperateAdmin = false) →
      I (s.modifyAccount id fun _ => a.markEnabled false)) :
  Keeps (WithConfig cfg I) (visitInactive env (cfg.inactiveDaysThreshold * daySecondCount) id)
  := by
  unfold visitInactive callAccount
  refine Spec.bind Spec.get fun s => Spec.bind Spec.get fun s' => ?_
  cases ha : s'.accounts.lookup id with
  | none => exact Spec.throw fun _ h => h.2.2
  | some a =>
    simp only
    cases hf : a.updateInactiveStatus env s'.config (s.enabledAdminNumber = 1)
        (cfg.inactiveDaysThreshold * daySecondCount) id with
    | error e => exact Spec.throw fun _ h => h.2.2
    | ok a' =>
      apply Spec.modify
      rintro s'' ⟨rfl, rfl, hcfg, hs⟩
      refine ⟨hcfg, ?_⟩
      rw [← hcfg] at hf
      obtain rfl | ⟨rfl, hidle, honly⟩ := Account.updateInactiveStatus_cases hf
      · unfold State.modifyAccount
        rw [Table.modify_const ha]
        exact hs
      · rw [hcfg] at hidle
        exact hI s a hcfg hs ha hidle fun h => honly (by simp [h])

/-- A pass keeps `I` under the same condition. -/
theorem updateInactiveStatus_keeps {env : Env} {I : State → Prop} {s : State}
    (hI : ∀ (s' : State) (id : ℕ) (a : Account), s'.config = s.config → I s' →
      s'.accounts.lookup id = some a → Idle env s.config id a →
      (s'.enabledAdminNumber = 1 → a.isOperateAdmin = false) →
      I (s'.modifyAccount id fun _ => a.markEnabled false)) (order : List ℕ) (hs : I s) :
  I (after (updateInactiveStatus env order) s)
  := by
  have hsweep : Keeps (WithConfig s.config I)
      (order.forM (visitInactive env (s.config.inactiveDaysThreshold * daySecondCount))) := by
    apply Keeps.forM
    intro id _
    exact visitInactive_keeps id fun s' a => hI s' id a
  unfold updateInactiveStatus after
  rw [exec_bind_ok (exec_get s)]
  split_ifs
  · exact hs
  · exact (hsweep.after ⟨rfl, hs⟩).2

/-- An account that is not idle stays as it is. -/
theorem updateInactiveStatus_keeps_account {env : Env} {s : State} {P : ℕ → Account → Prop}
    (hP : ∀ id a, P id a → ¬ Idle env s.config id a) (order : List ℕ) (hs : s.HasAccount P) :
  (after (updateInactiveStatus env order) s).HasAccount P
  := by
  apply updateInactiveStatus_keeps _ order hs
  rintro s' id a - ⟨j, b, hb, hPb⟩ ha hidle -
  refine ⟨j, b, ?_, hPb⟩
  have hj : j ≠ id := by
    rintro rfl
    rw [ha] at hb
    rw [← Option.some_inj.mp hb] at hPb
    exact hP j a hPb hidle
  simp only [State.modifyAccount]
  rw [Table.lookup_modify_ne hj, hb]

/-- Where all enabled administrators can operate, one of them stays. -/
theorem updateInactiveStatus_keeps_admin {env : Env} {s : State}
    (hall : ∀ id a, s.accounts.lookup id = some a → a.checkIsEnabledAdmin = true →
      a.isOperateAdmin = true) (order : List ℕ) (hs : s.HasOperateAdmin) :
  (after (updateInactiveStatus env order) s).HasOperateAdmin
  := by
  let I (s : State) : Prop := s.HasOperateAdmin ∧
    ∀ id a, s.accounts.lookup id = some a → a.checkIsEnabledAdmin = true → a.isOperateAdmin = true
  suffices h : I (after (updateInactiveStatus env order) s) from h.1
  apply updateInactiveStatus_keeps (I := I) _ order ⟨hs, hall⟩
  rintro s' id a - ⟨⟨j, b, hb, hop⟩, hall⟩ ha - honly
  constructor
  · have hother : s'.OtherOperateAdmin id := by
      by_cases hj : j = id
      · subst hj
        by_contra hno
        have hadmin : b.checkIsEnabledAdmin = true := ((Account.isOperateAdmin_iff b).mp hop).1
        have hle : s'.enabledAdminNumber ≤ 1 := by
          refine (Table.count_le_one_iff hb hadmin).mpr ?_
          intro k c hc hadmin
          by_contra hk
          exact hno ⟨k, c, hc, hk, hall k c hc hadmin⟩
        have hone : s'.enabledAdminNumber = 1 := le_antisymm hle (Table.count_pos hb hadmin)
        rw [ha] at hb
        rw [← Option.some_inj.mp hb, honly hone] at hop
        cases hop
      · exact ⟨j, b, hb, hj, hop⟩
    exact hother.modifyAccount (Q := fun _ a => a.isOperateAdmin = true) (fun _ _ _ h => h.2)
      fun _ h => absurd rfl h.1
  · intro k c hc hadmin
    simp only [State.modifyAccount] at hc
    by_cases hk : k = id
    · subst hk
      rw [Table.lookup_modify_self, ha] at hc
      rw [← Option.some_inj.mp hc, not_isEnabledAdmin_markEnabled] at hadmin
      cases hadmin
    · rw [Table.lookup_modify_ne hk] at hc
      exact hall k c hc hadmin

theorem updateInactiveStatus_keeps_none {env : Env} {s : State} (order : List ℕ)
    (hs : ¬ s.HasOperateAdmin) :
  ¬ (after (updateInactiveStatus env order) s).HasOperateAdmin
  := by
  apply updateInactiveStatus_keeps (I := fun s => ¬ s.HasOperateAdmin) _ order hs
  rintro s' id a - hno ha - - ⟨j, b, hb, hop⟩
  simp only [State.modifyAccount] at hb
  by_cases hj : j = id
  · subst hj
    rw [Table.lookup_modify_self, ha] at hb
    rw [← Option.some_inj.mp hb, not_isOperateAdmin_markEnabled] at hop
    cases hop
  · rw [Table.lookup_modify_ne hj] at hb
    exact hno ⟨j, b, hb, hop⟩

/-! ## A pass that disables all operable administrators -/

theorem exec_visitInactive_idle {env : Env} {s : State} {id : ℕ} {a : Account}
    (ha : s.accounts.lookup id = some a) (hop : a.isOperateAdmin = true)
    (hidle : Idle env s.config id a) (hcount : s.enabledAdminNumber ≠ 1) :
  exec (visitInactive env (s.config.inactiveDaysThreshold * daySecondCount) id) s
    = (.ok (), s.modifyAccount id fun _ => a.markEnabled false)
  := by
  unfold visitInactive callAccount
  rw [exec_bind_ok (exec_get s), exec_bind_ok (exec_get s)]
  simp only [ha, hcount, decide_false, Account.updateInactiveStatus_idle hop hidle]
  rfl

/-- Visiting idle operable administrators disables them all, as long as there is an
enabled administrator that cannot operate. -/
theorem exec_forM_visitInactive_idle {env : Env} {s : State} {ids : List ℕ} (hnodup : ids.Nodup)
    (hids : ∀ id ∈ ids, ∃ a, s.accounts.lookup id = some a ∧ a.isOperateAdmin = true ∧
      Idle env s.config id a)
    (hother : s.HasAccount fun _ a => a.checkIsEnabledAdmin = true ∧ a.isOperateAdmin = false) :
  ∃ s', exec (ids.forM
      (visitInactive env (s.config.inactiveDaysThreshold * daySecondCount))) s = (.ok (), s') ∧
    s'.config = s.config ∧
    (∀ id ∈ ids, ∃ a, s'.accounts.lookup id = some a ∧ a.isOperateAdmin = false) ∧
    ∀ id ∉ ids, s'.accounts.lookup id = s.accounts.lookup id
  := by
  induction ids generalizing s with
  | nil => exact ⟨s, rfl, rfl, fun _ h => absurd h List.not_mem_nil, fun _ _ => rfl⟩
  | cons id ids ih =>
    obtain ⟨hid, hnodup⟩ := List.nodup_cons.mp hnodup
    obtain ⟨a, ha, hop, hidle⟩ := hids id List.mem_cons_self
    obtain ⟨y, b, hb, hadmin, hnop⟩ := hother
    have hy : y ≠ id := by
      rintro rfl
      rw [ha] at hb
      rw [← Option.some_inj.mp hb, hop] at hnop
      cases hnop
    have hcount : s.enabledAdminNumber ≠ 1 := by
      intro hone
      apply hy
      have hle := (Table.count_le_one_iff ha ((Account.isOperateAdmin_iff a).mp hop).1).mp hone.le
      exact hle y b hb hadmin
    set s₁ := s.modifyAccount id fun _ => a.markEnabled false with hs₁
    have hlook : ∀ j, j ≠ id → s₁.accounts.lookup j = s.accounts.lookup j := fun j hj =>
      Table.lookup_modify_ne hj _ _
    obtain ⟨s', hexec, hcfg, hdis, hsame⟩ := ih (s := s₁) hnodup
      (by
        intro j hj
        obtain ⟨c, hc, hrest⟩ := hids j (List.mem_cons_of_mem id hj)
        exact ⟨c, by rw [hlook j (fun h => hid (h ▸ hj)), hc], hrest⟩)
      ⟨y, b, by rw [hlook y hy, hb], hadmin, hnop⟩
    refine ⟨s', ?_, hcfg, ?_, ?_⟩
    · change exec (visitInactive env _ id >>= fun _ => ids.forM _) s = _
      rw [exec_bind_ok (exec_visitInactive_idle ha hop hidle hcount)]
      exact hexec
    · intro j hj
      obtain rfl | hj := List.mem_cons.mp hj
      · refine ⟨a.markEnabled false, ?_, not_isOperateAdmin_markEnabled a⟩
        rw [hsame j hid, hs₁, State.modifyAccount, Table.lookup_modify_self, ha]
        rfl
      · exact hdis j hj
    · intro j hj
      rw [List.mem_cons, not_or] at hj
      rw [hsame j hj.2, hlook j hj.1]

/-- When all operable administrators are idle and some enabled administrator cannot
operate, visiting the operable administrators first leaves none. -/
theorem exists_order_not_hasOperateAdmin {env : Env} {s : State}
    (hthreshold : s.config.inactiveDaysThreshold ≠ 0)
    (hidle : ∀ id a, s.accounts.lookup id = some a → a.isOperateAdmin = true →
      Idle env s.config id a)
    (hother : s.HasAccount fun _ a => a.checkIsEnabledAdmin = true ∧ a.isOperateAdmin = false) :
  ∃ order, order.Perm s.accounts.keys ∧
    ¬ (after (updateInactiveStatus env order) s).HasOperateAdmin
  := by
  let admin (id : ℕ) : Bool := (s.accounts.lookup id).any Account.isOperateAdmin
  let first := s.accounts.keys.filter admin
  let rest := s.accounts.keys.filter fun id => !admin id
  have hfirst : ∀ id ∈ first, ∃ a, s.accounts.lookup id = some a ∧ a.isOperateAdmin = true ∧
      Idle env s.config id a := by
    intro id hid
    have hadmin := (List.mem_filter.mp hid).2
    obtain ⟨a, ha, hop⟩ := (Option.any_eq_true _ _).mp hadmin
    exact ⟨a, ha, hop, hidle id a ha hop⟩
  obtain ⟨s', hexec, hcfg, hdis, hsame⟩ :=
    exec_forM_visitInactive_idle (s.accounts.keys_nodup.filter admin) hfirst hother
  refine ⟨first ++ rest, List.filter_append_perm admin _, ?_⟩
  have hnone : ¬ s'.HasOperateAdmin := by
    rintro ⟨id, a, ha, hop⟩
    by_cases hid : id ∈ first
    · obtain ⟨b, hb, hnop⟩ := hdis id hid
      rw [ha] at hb
      rw [Option.some_inj.mp hb, hnop] at hop
      cases hop
    · rw [hsame id hid] at ha
      apply hid
      refine List.mem_filter.mpr ⟨?_, (Option.any_eq_true _ _).mpr ⟨a, ha, hop⟩⟩
      exact AList.mem_keys.mp (AList.lookup_isSome.mp (by rw [ha]; rfl))
  have hafter : after (updateInactiveStatus env (first ++ rest)) s
      = after (updateInactiveStatus env rest) s' := by
    unfold updateInactiveStatus after
    rw [exec_bind_ok (exec_get s), exec_bind_ok (exec_get s'), if_neg hthreshold, hcfg,
      if_neg hthreshold, exec_forM_append, exec_bind_ok hexec]
  rw [hafter]
  exact updateInactiveStatus_keeps_none rest hnone

/-! ## When a pass is safe -/

/-- A pass leaves an operable administrator and does not disable the emergency account. -/
def SweepSafe (env : Env) (order : List ℕ) (s : State) : Prop :=
  (after (updateInactiveStatus env order) s).HasOperateAdmin ∧
  (s.HasAccount (fun id a => id = s.config.emergencyLoginAccountId ∧ a.data.enabled = true) →
    (after (updateInactiveStatus env order) s).HasAccount
      fun id a => id = s.config.emergencyLoginAccountId ∧ a.data.enabled = true)

/-- One pass is safe in every order of visiting the accounts exactly if the sweep is
switched off, some operable administrator is not idle, or every enabled administrator can
operate. -/
theorem sweepSafe_iff (env : Env) (s : State) (hs : s.HasOperateAdmin) :
  (∀ order, order.Perm s.accounts.keys → SweepSafe env order s) ↔
    (s.config.inactiveDaysThreshold = 0 ∨
      s.HasAccount (fun id a => a.isOperateAdmin = true ∧ ¬ Idle env s.config id a) ∨
      ∀ id a, s.accounts.lookup id = some a → a.checkIsEnabledAdmin = true →
        a.isOperateAdmin = true)
  := by
  constructor
  · intro h
    by_contra hno
    simp only [not_or, not_forall, Bool.not_eq_true] at hno
    obtain ⟨hthreshold, hbusy, id, a, ha, hadmin, hnop⟩ := hno
    have hidle : ∀ id a, s.accounts.lookup id = some a → a.isOperateAdmin = true →
        Idle env s.config id a := by
      intro id a ha hop
      by_contra hidle
      exact hbusy ⟨id, a, ha, hop, hidle⟩
    obtain ⟨order, hperm, hnone⟩ :=
      exists_order_not_hasOperateAdmin hthreshold hidle ⟨id, a, ha, hadmin, hnop⟩
    exact hnone (h order hperm).1
  · intro h order _
    constructor
    · obtain hzero | hbusy | hall := h
      · unfold updateInactiveStatus after
        rw [exec_bind_ok (exec_get s), if_pos hzero]
        exact hs
      · exact (updateInactiveStatus_keeps_account (fun _ _ h => h.2) order hbusy).imp
          fun _ _ h => h.1
      · exact updateInactiveStatus_keeps_admin hall order hs
    · exact updateInactiveStatus_keeps_account (fun _ _ h hidle => hidle.notEmergency h.1) order

/-- An administrator that can only use SFTP is enough for the sweep to disable the only one
that can operate, and then the other one too. -/
theorem sweep_disables_last_admin :
  ¬ ∀ (env : Env) (s : State) (order : List ℕ), s.HasOperateAdmin →
    order.Perm s.accounts.keys → SweepSafe env order s
  := by
  intro h
  have hsafe := (h plainEnv
    (plainState [(2, plainAccount "Administrator" 4 223), (3, plainAccount "backup" 4 16)]) [2, 3]
    ((State.hasOperateAdmin_iff _).mpr (by decide +kernel)) (by decide +kernel)).1
  rw [State.hasOperateAdmin_iff] at hsafe
  revert hsafe
  decide +kernel

/-- With a second administrator that can operate, the one visited last stays. -/
theorem sweepSafe_two_admins :
  (plainState [(2, plainAccount "Administrator" 4 223), (3, plainAccount "backup" 4 1)]).HasOperateAdmin
    ∧ ∀ order, order.Perm (plainState [(2, plainAccount "Administrator" 4 223),
        (3, plainAccount "backup" 4 1)]).accounts.keys →
      SweepSafe plainEnv order
        (plainState [(2, plainAccount "Administrator" 4 223), (3, plainAccount "backup" 4 1)])
  := by
  have hstart : (plainState [(2, plainAccount "Administrator" 4 223),
      (3, plainAccount "backup" 4 1)]).HasOperateAdmin :=
    (State.hasOperateAdmin_iff _).mpr (by decide +kernel)
  refine ⟨hstart, (sweepSafe_iff _ _ hstart).mpr ?_⟩
  have hall : ∀ e ∈ (plainState [(2, plainAccount "Administrator" 4 223),
      (3, plainAccount "backup" 4 1)]).accounts.entries,
      e.2.checkIsEnabledAdmin = true → e.2.isOperateAdmin = true := by
    decide +kernel
  exact Or.inr (Or.inr fun id a ha => hall ⟨id, a⟩ (Table.mem_entries_iff.mpr ha))

end BmcAccount
