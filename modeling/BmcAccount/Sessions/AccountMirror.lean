import BmcAccount.Sessions.AccountCache
import BmcAccount.Lib.Mirror

/-!
# The account cache in runs

The accounts are changed, the signals of it are on their way, and the passes over the accounts go on
at the same time, each reading the accounts one after the other. The cache of the accounts is a
mirror of them (`simulates_accounts`): once a pass has ended and no signal is in flight, it holds
of every account what the account component shows (`accounts_agree_of_run`).

A signal of several properties is that many pieces of news.
-/

namespace BmcAccount

namespace Sessions

open Raise

/-! ## Runs -/

/-- The object of an account with the value of a property. -/
def Property.write (property : Property) (obj : AccountObject) : AccountObject :=
  match property with
  | .userName value => { obj with userName := value }
  | .roleId value => { obj with roleId := value }
  | .lastLoginIp value => { obj with lastLoginIp := value }
  | .lastLoginTime value => { obj with lastLoginTime := value }
  | .privileges value => { obj with privileges := value }
  | .passwordChangeRequired value => { obj with passwordChangeRequired := value }
  | .firstLoginPolicy value => { obj with firstLoginPolicy := value }
  | .enabled _ | .locked _ | .loginInterface _ => obj

/-- `clear_cache_flush_state`. -/
def Iam.clearCacheFlushState (s : Iam) : Iam :=
  { s with cache := fun id => (s.cache id).map fun e => { e with isFlush := false } }

/-- The part of `sync_account_info` for one account. -/
def Iam.syncAccount (s : Iam) (objs : ℕ → Option AccountObject) (id : ℕ) : Iam :=
  { s with cache := syncObj objs s.cache id }

/-- `clean_redundant_cache`. -/
def Iam.cleanRedundantCache (s : Iam) : Iam :=
  { s with cache := fun id => (s.cache id).filter fun e => e.isFlush }

/-- A pass in which nothing else happens. -/
theorem syncAccountInfo_eq (s : Iam) (objs : ℕ → Option AccountObject) :
  s.syncAccountInfo objs
    = Iam.cleanRedundantCache
      (accountIds.foldl (fun s id => s.syncAccount objs id) s.clearCacheFlushState)
  := by
  have hfold : ∀ (l : List ℕ) (s : Iam), l.foldl (fun s id => s.syncAccount objs id) s
      = { s with cache := l.foldl (syncObj objs) s.cache } := by
    intro l
    induction l with
    | nil => exact fun _ => rfl
    | cons id l ih => exact fun s => ih (s.syncAccount objs id)
  rw [hfold]
  rfl

/-- The objects of the accounts, the signals that are in flight, the caches and the sessions, and
the accounts that the pass has still to come to. -/
structure AccountSystem where
  objects : ℕ → Option AccountObject
  inFlight : List (ℕ × Mirror.News Property)
  iam : Iam
  unread : Finset ℕ

/-- An account is created, deleted or changed; a signal arrives; the pass of `sync_account_info`
begins, comes to an account, or ends; the service is called, or a role changes. Where an object is
to be read, the reading may fail. -/
inductive AccountEvent (Dn : Type) where
  | add (id : ℕ) (obj : AccountObject)
  | remove (id : ℕ)
  | change (id : ℕ) (property : Property)
  | deliver (reads : Bool)
  | clear
  | read (id : ℕ) (reads : Bool)
  | clean
  | call (order : List ℕ) (c : Call Dn)
  | roleChanged (roleId : ℕ) (rolePrivilege : List PrivilegeType)

section Steps

variable {Dn : Type} (p : Platform) (s : AccountSystem)

/-- The objects as they can be read. -/
def AccountSystem.readable (reads : Bool) (id : ℕ) : Option AccountObject :=
  if reads = true then s.objects id else none

/-- What the account component does to an account, and the signal of it. -/
def AccountSystem.send (id : ℕ) (obj : Option AccountObject) (n : Mirror.News Property) :
    AccountSystem :=
  { s with objects := Function.update s.objects id obj, inFlight := s.inFlight ++ [(id, n)] }

/-- The event that a signal is. -/
def AccountSystem.signal (reads : Bool) (id : ℕ) : Mirror.News Property → Event Dn
  | .added => .accountAdded id (s.readable reads id)
  | .removed => .accountRemoved id
  | .changed property => .accountChanged id [property]

/-- The signal that was sent first arrives. -/
def AccountSystem.deliver (Dn : Type) (reads : Bool) : AccountSystem :=
  match s.inFlight with
  | [] => s
  | (id, n) :: rest =>
    { s with iam := s.iam.step p (s.signal reads id n : Event Dn), inFlight := rest }

/-- The state after an event. -/
def AccountSystem.after : AccountEvent Dn → AccountSystem
  | .add id obj => s.send id (some obj) .added
  | .remove id => s.send id none .removed
  | .change id property => s.send id ((s.objects id).map property.write) (.changed property)
  | .deliver reads => s.deliver p Dn reads
  | .clear => { s with iam := s.iam.clearCacheFlushState, unread := accountIds.toFinset }
  | .read id reads =>
    { s with iam := s.iam.syncAccount (s.readable reads) id, unread := s.unread.erase id }
  | .clean => { s with iam := s.iam.cleanRedundantCache }
  | .call order c => { s with iam := s.iam.step p (.call order c) }
  | .roleChanged roleId rolePrivilege =>
    { s with iam := s.iam.step p (.roleChanged roleId rolePrivilege : Event Dn) }

end Steps

/-- Objects can be read, and a pass ends when it has come to every account. -/
def AccountSystem.Fair {Dn : Type} (s : AccountSystem) : AccountEvent Dn → Prop
  | .deliver reads => reads = true
  | .read _ reads => reads = true
  | .clean => s.unread = ∅
  | _ => True

/-- The cache is empty, and nothing has happened yet. -/
def AccountSystem.start (objects : ℕ → Option AccountObject)
    (roles : ℕ → Option (List PrivilegeType)) (service : Service) : AccountSystem where
  objects := objects
  inFlight := []
  iam := ⟨fun _ => none, roles, service⟩
  unread := accountIds.toFinset

/-! ## The cache is a mirror -/

theorem lawful_property_write : Mirror.Lawful Property.write where
  idem property obj := by
    cases property <;> rfl
  congr property property' obj obj' h := by
    cases property <;> cases property' <;> simp_all [Property.write]

/-- What an entry of the cache holds of the object. -/
def CacheEntry.object (e : CacheEntry) : AccountObject where
  userName := e.account.info.userName
  roleId := e.account.info.roleId.headD 0
  lastLoginIp := e.account.info.lastLoginIp
  lastLoginTime := e.account.info.lastLoginTime
  privileges := e.privileges
  passwordChangeRequired := e.account.passwordChangeRequired
  firstLoginPolicy := e.account.firstLoginPolicy

theorem object_edit (property : Property) (e : CacheEntry) :
  (property.edit e).object = property.write e.object ∧ (property.edit e).isFlush = e.isFlush
  := by
  cases property <;> exact ⟨rfl, rfl⟩

/-- What the cache holds of the objects. -/
def AccountCache.view (cache : AccountCache) (id : ℕ) : Option (AccountObject × Bool) :=
  (cache id).map fun e => (e.object, e.isFlush)

theorem AccountCache.view_update (cache : AccountCache) (id : ℕ) (e : Option CacheEntry) :
  AccountCache.view (Function.update cache id e)
    = Function.update (AccountCache.view cache) id (e.map fun e => (e.object, e.isFlush))
  := by
  funext id'
  unfold view
  by_cases hid : id' = id
  · subst hid
    rw [Function.update_self, Function.update_self]
  · rw [Function.update_of_ne hid, Function.update_of_ne hid]

/-- The objects of the accounts, and what the cache holds of them. -/
def AccountSystem.mirror (s : AccountSystem) : Mirror.State ℕ AccountObject Property where
  original := s.objects
  inFlight := s.inFlight
  copy := AccountCache.view s.iam.cache
  unread := s.unread

/-- What an event is to the mirror. -/
def AccountSystem.image {Dn : Type} (_ : AccountSystem) :
    AccountEvent Dn → Option (Mirror.Event ℕ AccountObject Property)
  | .add id obj => some (.add id obj)
  | .remove id => some (.remove id)
  | .change id property => some (.change id property)
  | .deliver reads => some (.deliver reads)
  | .clear => some .clear
  | .read id reads => some (.read id reads)
  | .clean => some .clean
  | .call _ _ | .roleChanged _ _ => none

section Views

variable (p : Platform) (s : Iam) (id : ℕ)

theorem view_newAccountCache (obj : AccountObject) :
  AccountCache.view (s.newAccountCache id obj).cache
    = Function.update (AccountCache.view s.cache) id (some (obj, true))
  := AccountCache.view_update s.cache id (some (obj.entry id))

theorem view_delAccountCache :
  AccountCache.view (s.delAccountCache p id).cache
    = Function.update (AccountCache.view s.cache) id none
  := by
  unfold Iam.delAccountCache
  cases he : s.cache id with
  | none =>
    have hnone : AccountCache.view s.cache id = none := by
      unfold AccountCache.view
      rw [he, Option.map_none]
    rw [← hnone, Function.update_eq_self]
  | some e => exact AccountCache.view_update s.cache id none

/-- A change of a property changes the entry, whether it deletes sessions or not. -/
theorem cache_changeProperty (property : Property) :
  (s.changeProperty p id property).cache
    = Function.update s.cache id ((s.cache id).map property.edit)
  := by
  unfold Iam.changeProperty
  cases he : s.cache id with
  | none =>
    have hself : Function.update s.cache id none = s.cache := by
      rw [← he, Function.update_eq_self]
    exact hself.symm
  | some e =>
    dsimp only
    split <;> rfl

theorem view_changeProperty (property : Property) :
  AccountCache.view (s.changeProperty p id property).cache
    = Function.update (AccountCache.view s.cache) id
      ((AccountCache.view s.cache id).map fun e => (property.write e.1, e.2))
  := by
  rw [cache_changeProperty, AccountCache.view_update]
  congr 1
  unfold AccountCache.view
  rw [Option.map_map, Option.map_map]
  cases s.cache id with
  | none => rfl
  | some e =>
    obtain ⟨hobject, hflush⟩ := object_edit property e
    change some (_, _) = some (_, _)
    rw [hobject, hflush]

/-- What a pass does to the cache when it comes to an account. -/
theorem view_syncAccount (objs : ℕ → Option AccountObject) :
  AccountCache.view (s.syncAccount objs id).cache
    = Function.update (AccountCache.view s.cache) id
      (((objs id).map (·, true)).or (AccountCache.view s.cache id))
  := by
  change AccountCache.view (syncObj objs s.cache id) = _
  unfold syncObj
  cases objs id with
  | none => exact (Function.update_eq_self id _).symm
  | some obj => exact AccountCache.view_update s.cache id (some (obj.entry id))

theorem view_clearCacheFlushState :
  AccountCache.view s.clearCacheFlushState.cache
    = fun id => (AccountCache.view s.cache id).map fun e => (e.1, false)
  := by
  funext id
  unfold AccountCache.view
  rw [Option.map_map]
  change Option.map _ ((s.cache id).map _) = _
  rw [Option.map_map]
  rfl

theorem view_cleanRedundantCache :
  AccountCache.view s.cleanRedundantCache.cache
    = fun id => (AccountCache.view s.cache id).filter fun e => e.2
  := by
  funext id
  change ((s.cache id).filter fun e => e.isFlush).map (fun e => (e.object, e.isFlush))
    = ((s.cache id).map fun e => (e.object, e.isFlush)).filter fun e => e.2
  cases s.cache id with
  | none => rfl
  | some e =>
    rw [Option.filter_some, Option.map_some, Option.filter_some]
    cases hflush : e.isFlush with
    | false => rfl
    | true => rw [if_pos rfl, if_pos rfl, Option.map_some, hflush]

end Views

section Steps

variable {Dn : Type} (p : Platform) (s : AccountSystem)

theorem AccountSystem.view_signal (reads : Bool) (id : ℕ) (n : Mirror.News Property) :
  AccountCache.view (s.iam.step p (s.signal reads id n : Event Dn)).cache
    = Function.update (AccountCache.view s.iam.cache) id
      (n.arrive Property.write reads (s.objects id) (AccountCache.view s.iam.cache id))
  := by
  cases n with
  | added =>
    change AccountCache.view ((s.readable reads id).elim s.iam (s.iam.newAccountCache id)).cache = _
    unfold readable
    cases reads with
    | false => exact (Function.update_eq_self id _).symm
    | true =>
      cases s.objects id with
      | none => exact (Function.update_eq_self id _).symm
      | some obj => exact view_newAccountCache s.iam id obj
  | removed => exact view_delAccountCache p s.iam id
  | changed property => exact view_changeProperty p s.iam id property

theorem AccountSystem.mirror_deliver (reads : Bool) :
  (s.deliver p Dn reads).mirror
    = s.mirror.after Property.write ↑accountIds.toFinset (.deliver reads)
  := by
  unfold deliver
  cases hflight : s.inFlight with
  | nil =>
    symm
    exact Mirror.after_deliver_of_nil (s := s.mirror) hflight
  | cons e rest =>
    obtain ⟨id, n⟩ := e
    rw [Mirror.after_deliver_of_cons (s := s.mirror) hflight]
    unfold mirror
    simp only [view_signal]
    rfl

theorem AccountSystem.mirror_read (id : ℕ) (reads : Bool) :
  (s.after p (.read id reads : AccountEvent Dn)).mirror
    = s.mirror.after Property.write ↑accountIds.toFinset (.read id reads)
  := by
  have hread : ((s.readable reads id).map (·, true)).or (AccountCache.view s.iam.cache id)
      = if reads = true then
          ((s.objects id).map (·, true)).or (AccountCache.view s.iam.cache id)
        else AccountCache.view s.iam.cache id := by
    unfold readable
    cases reads <;> rfl
  have hunread : ((s.unread.erase id : Finset ℕ) : Set ℕ) = ↑s.unread \ {id} :=
    Finset.coe_erase id s.unread
  simp only [after, mirror, view_syncAccount, hread, hunread]
  rfl

/-- The service and the roles are not part of the mirror. -/
theorem AccountSystem.mirror_iam {iam : Iam} (h : iam.cache = s.iam.cache) :
  AccountSystem.mirror { s with iam := iam } = s.mirror
  := by
  unfold mirror
  rw [h]

end Steps

/-- The cache of the accounts is a mirror of their objects. -/
theorem simulates_accounts {Dn : Type} (p : Platform) :
  Mirror.Simulates (@AccountSystem.after Dn p) AccountSystem.Fair Property.write
    ↑accountIds.toFinset AccountSystem.mirror AccountSystem.image
  where
  view_step s e _ := by
    cases e with
    | add id obj | remove id | change id property => rfl
    | deliver reads => exact s.mirror_deliver p reads
    | clear =>
      change Mirror.State.mk s.objects s.inFlight
        (AccountCache.view s.iam.clearCacheFlushState.cache) _ = _
      rw [view_clearCacheFlushState]
      rfl
    | read id reads => exact s.mirror_read p id reads
    | clean =>
      change Mirror.State.mk s.objects s.inFlight
        (AccountCache.view s.iam.cleanRedundantCache.cache) _ = _
      rw [view_cleanRedundantCache]
      rfl
    | call order c | roleChanged roleId rolePrivilege => exact s.mirror_iam rfl
  fair s e hok e' he' := by
    cases e with
    | deliver reads | read id reads =>
      cases he'
      exact ⟨trivial, hok⟩
    | clean =>
      cases he'
      have hempty : s.mirror.unread = ∅ := by
        change ((s.unread : Finset ℕ) : Set ℕ) = ∅
        rw [show s.unread = ∅ from hok, Finset.coe_empty]
      exact ⟨hempty, trivial⟩
    | call order c | roleChanged roleId rolePrivilege => cases he'
    | _ =>
      cases he'
      exact ⟨trivial, trivial⟩

/-! ## Entries are those of objects -/

/-- The accounts of the cache are as an object fills them in. -/
def AccountCache.Filled (cache : AccountCache) : Prop :=
  ∀ id, ∀ e ∈ cache id, e.account = (e.object.entry id).account

theorem AccountCache.Filled.update {cache : AccountCache} (h : cache.Filled) {id : ℕ}
    {e : Option CacheEntry} (he : ∀ e' ∈ e, e'.account = (e'.object.entry id).account) :
  AccountCache.Filled (Function.update cache id e)
  := by
  intro id' e' he'
  by_cases hid : id' = id
  · subst hid
    rw [Function.update_self] at he'
    exact he e' he'
  · rw [Function.update_of_ne hid] at he'
    exact h id' e' he'

/-- What an object fills in is filled in. -/
theorem entry_object_entry (obj : AccountObject) (id : ℕ) :
  (obj.entry id).account = ((obj.entry id).object.entry id).account
  := rfl

theorem account_edit {e : CacheEntry} {id : ℕ} (h : e.account = (e.object.entry id).account)
    (property : Property) :
  (property.edit e).account = ((property.edit e).object.entry id).account
  := by
  obtain ⟨hobject, -⟩ := object_edit property e
  obtain ⟨account, isFlush⟩ := e
  change account = _ at h
  rw [hobject]
  cases property <;> rw [h] <;> rfl

theorem filled_newAccountCache {s : Iam} (h : s.cache.Filled) (id : ℕ) (obj : AccountObject) :
  (s.newAccountCache id obj).cache.Filled
  := by
  apply h.update
  rintro e ⟨⟩
  exact entry_object_entry obj id

theorem filled_delAccountCache {s : Iam} (h : s.cache.Filled) (p : Platform) (id : ℕ) :
  (s.delAccountCache p id).cache.Filled
  := by
  unfold Iam.delAccountCache
  split
  · exact h
  · apply h.update
    rintro e ⟨⟩

theorem filled_changeProperty {s : Iam} (h : s.cache.Filled) (p : Platform) (id : ℕ)
    (property : Property) :
  (s.changeProperty p id property).cache.Filled
  := by
  rw [cache_changeProperty]
  apply h.update
  intro e' he'
  obtain ⟨e, he, rfl⟩ := Option.map_eq_some_iff.mp he'
  exact account_edit (h id e he) property

theorem filled_syncAccount {s : Iam} (h : s.cache.Filled) (objs : ℕ → Option AccountObject)
    (id : ℕ) :
  (s.syncAccount objs id).cache.Filled
  := by
  change (syncObj objs s.cache id).Filled
  unfold syncObj
  split
  · exact h
  · apply h.update
    rintro e ⟨⟩
    exact entry_object_entry _ id

section Steps

variable {Dn : Type} {p : Platform} {s : AccountSystem}

theorem filled_deliver (h : s.iam.cache.Filled) (reads : Bool) :
  (s.deliver p Dn reads).iam.cache.Filled
  := by
  unfold AccountSystem.deliver
  split
  · exact h
  · next id n rest _ =>
    cases n with
    | added =>
      change AccountCache.Filled
        (Option.elim (s.readable reads id) s.iam (s.iam.newAccountCache id)).cache
      cases s.readable reads id with
      | none => exact h
      | some obj => exact filled_newAccountCache h id obj
    | removed => exact filled_delAccountCache h p id
    | changed property => exact filled_changeProperty h p id property

theorem filled_after (e : AccountEvent Dn) (h : s.iam.cache.Filled) :
  (s.after p e).iam.cache.Filled
  := by
  cases e with
  | deliver reads => exact filled_deliver h reads
  | clear =>
    intro id e' he'
    obtain ⟨e, he, rfl⟩ := Option.map_eq_some_iff.mp he'
    exact h id e he
  | read id reads => exact filled_syncAccount h _ id
  | clean =>
    intro id e he
    exact h id e (Option.filter_eq_some_iff.mp he).1
  | _ => exact h

theorem filled_run (es : List (AccountEvent Dn)) (h : s.iam.cache.Filled) :
  (es.foldl (AccountSystem.after p) s).iam.cache.Filled
  := by
  induction es generalizing s with
  | nil => exact h
  | cons e es ih => exact ih (filled_after e h)

end Steps

/-! ## The cache agrees with the accounts -/

/-- In every run in which a pass of the cache ends, when no signal is in flight: the cache holds
the accounts that a pass comes to as their objects show them, and none that is gone. -/
theorem accounts_agree_of_run {Dn : Type} (p : Platform) (objects : ℕ → Option AccountObject)
    (roles : ℕ → Option (List PrivilegeType)) (service : Service) (es : List (AccountEvent Dn))
    (hfair : Run.Along (AccountSystem.after p) AccountSystem.Fair
      (AccountSystem.start objects roles service) es)
    (hclean : .clean ∈ es) {s : AccountSystem}
    (hs : s = es.foldl (AccountSystem.after p) (AccountSystem.start objects roles service))
    (hquiet : s.inFlight = []) :
  ∀ id ∈ accountIds,
    (s.iam.cache id).map CacheEntry.account
      = (s.objects id).map fun obj => (obj.entry id).account
  := by
  intro id hid
  have hkey : id ∈ (↑accountIds.toFinset : Set ℕ) :=
    Finset.mem_coe.mpr (List.mem_toFinset.mpr hid)
  have hsound : (AccountSystem.start objects roles service).mirror.Sound Property.write id :=
    Mirror.sound_start rfl rfl hkey
  have hfilled : s.iam.cache.Filled := by
    rw [hs]
    apply filled_run
    rintro id e ⟨⟩
  have hnews : s.mirror.news id = [] := by
    change (s.inFlight.filter _).map _ = []
    rw [hquiet]
    rfl
  have hcopy := (simulates_accounts p).copy_eq lawful_property_write hkey hfair hsound hclean
    (fun _ => rfl) (hs ▸ hnews)
  rw [← hs] at hcopy
  change Option.map Prod.fst (Option.map _ _) = s.objects id at hcopy
  rw [Option.map_map] at hcopy
  rw [← hcopy, Option.map_map]
  cases he : s.iam.cache id with
  | none => rfl
  | some e => exact congrArg some (hfilled id e he)

instance {Dn : Type} (s : AccountSystem) (e : AccountEvent Dn) : Decidable (s.Fair e) :=
  match e with
  | .deliver reads => inferInstanceAs (Decidable (reads = true))
  | .read _ reads => inferInstanceAs (Decidable (reads = true))
  | .clean => inferInstanceAs (Decidable (s.unread = ∅))
  | .add _ _ | .remove _ | .change _ _ | .clear | .call _ _ | .roleChanged _ _ =>
    inferInstanceAs (Decidable True)

/-- The state after the events, where two accounts are there before. -/
def AccountSystem.plainRun (es : List (AccountEvent Unit)) : AccountSystem :=
  es.foldl (AccountSystem.after plainPlatform)
    (.start (fun id => if id = 2 ∨ id = 3 then some (userObject [.kvmMgmt]) else none)
      (fun _ => none) plainService)

/-- While a pass goes on, an account that it has come to loses a privilege, another one is deleted
before the pass comes to it, and one is created. -/
def busyPass : List (AccountEvent Unit) :=
  [.clear, .read 2 true, .change 2 (.privileges []), .remove 3, .deliver true,
      .add 18 (userObject [])]
    ++ accountIds.map (.read · true) ++ [.deliver true, .clean, .deliver true]

theorem accounts_agree_of_run_busyPass :
  ((AccountSystem.plainRun busyPass).iam.cache 2).map CacheEntry.account
    = ((AccountSystem.plainRun busyPass).objects 2).map fun obj => (obj.entry 2).account
  := accounts_agree_of_run plainPlatform _ (fun _ => none) plainService busyPass
    (by decide +kernel) (by simp [busyPass]) rfl (by decide +kernel) 2 (by decide)

end Sessions

end BmcAccount
