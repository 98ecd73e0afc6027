import BmcAccount.Lockout.IpLock

/-!
# Spellings of an address

An interface gives the address of a client with or without its port, and an IPv6 address with or
without brackets. Each operation on the records takes the port away first, and what is left is
taken for itself again. So the records of an address do not depend on how it is spelled.
-/

namespace BmcAccount

namespace IpLock

/-- A text of digits and dots that fits into the buffer of a key. -/
structure V4Text (ip : Ip) : Prop where
  digits : ∀ c ∈ ip, c.isDigit ∨ c = '.'
  lt : ip.length < maxIpLength

/-- A text with at least two colons, without brackets, that fits into the buffer of a key. -/
structure V6Text (ip : Ip) : Prop where
  colons : 2 ≤ ip.count ':'
  open_notMem : '[' ∉ ip
  close_notMem : ']' ∉ ip
  lt : ip.length < maxIpLength

/-- The spellings of an address. -/
inductive Spells (ip : Ip) : Ip → Prop where
  | v4 : V4Text ip → Spells ip ip
  | v4Port (port : Ip) : V4Text ip → ':' ∉ port → Spells ip (ip ++ ':' :: port)
  | v6 : V6Text ip → Spells ip ip
  | v6Brackets : V6Text ip → Spells ip ('[' :: (ip ++ [']']))
  | v6Port (port : Ip) : V6Text ip → Spells ip ('[' :: (ip ++ ']' :: ':' :: port))

/-- `get_all_lock_status`, of the files with these names: the name of each file is copied to a
buffer of `MAX_IP_LENGTH`, and then read as an address. -/
def Store.getAllLockStatus (s : Store) (names : List Ip) (c : LockConf) (now : ℕ) :
    Option (List (Ip × IpLockStatus)) :=
  names.mapM fun name => do
    let ip ← copyIp name
    let status ← s.getOneLockStatus name c now
    return (ip, status)

/-! ## The key of a spelling -/

theorem copyIp_of_lt {ip : Ip} (h : ip.length < maxIpLength) :
  copyIp ip = some ip
  := if_pos h

/-- Without a bracket at its beginning, a text is cut at a colon that is the only one. -/
theorem removePortFromIp_of_head {ip : Ip} (h : ip.head? ≠ some '[') :
  removePortFromIp ip
    = if ip.count ':' = 1 then copyIp (ip.takeWhile (· ≠ ':')) else copyIp ip
  := by
  rcases ip with _ | ⟨c, ip⟩
  · rfl
  · have hc : c ≠ '[' := by simpa using h
    rw [removePortFromIp]
    intro rest hrest
    exact hc (List.cons.inj hrest).1

namespace V4Text

variable {ip : Ip}

theorem colon_notMem (h : V4Text ip) :
  ':' ∉ ip
  := by
  intro hmem
  rcases h.digits _ hmem with hdigit | hdot
  · exact absurd hdigit (by decide)
  · exact absurd hdot (by decide)

theorem head_ne (h : V4Text ip) (t : Ip) (ht : t.head? ≠ some '[') :
  (ip ++ t).head? ≠ some '['
  := by
  rcases ip with _ | ⟨c, ip⟩
  · exact ht
  · intro hc
    obtain rfl : c = '[' := by simpa using hc
    rcases h.digits _ List.mem_cons_self with hdigit | hdot
    · exact absurd hdigit (by decide)
    · exact absurd hdot (by decide)

theorem removePortFromIp_eq (h : V4Text ip) :
  removePortFromIp ip = some ip
  := by
  have hhead := h.head_ne [] (by simp)
  rw [List.append_nil] at hhead
  rw [removePortFromIp_of_head hhead, List.count_eq_zero_of_not_mem h.colon_notMem,
    if_neg (by decide), copyIp_of_lt h.lt]

theorem removePortFromIp_port (h : V4Text ip) {port : Ip} (hport : ':' ∉ port) :
  removePortFromIp (ip ++ ':' :: port) = some ip
  := by
  have hcut : (ip ++ ':' :: port).takeWhile (· ≠ ':') = ip := by
    rw [List.takeWhile_append_of_pos]
    · simp
    · intro c hc
      simpa using ne_of_mem_of_not_mem hc h.colon_notMem
  rw [removePortFromIp_of_head (h.head_ne _ (by simp)), List.count_append,
    List.count_eq_zero_of_not_mem h.colon_notMem, List.count_cons_self,
    List.count_eq_zero_of_not_mem hport, if_pos rfl, hcut, copyIp_of_lt h.lt]

end V4Text

namespace V6Text

variable {ip : Ip}

theorem removePortFromIp_eq (h : V6Text ip) :
  removePortFromIp ip = some ip
  := by
  have hhead : ip.head? ≠ some '[' := fun hc => h.open_notMem (List.mem_of_mem_head? hc)
  have hcolons := h.colons
  rw [removePortFromIp_of_head hhead, if_neg (by omega), copyIp_of_lt h.lt]

/-- What stands between the brackets is read up to the closing one. -/
theorem takeWhile_close (h : V6Text ip) (t : Ip) :
  (ip ++ ']' :: t).takeWhile (· ≠ ']') = ip
  := by
  rw [List.takeWhile_append_of_pos]
  · simp
  · intro c hc
    simpa using ne_of_mem_of_not_mem hc h.close_notMem

theorem removePortFromIp_brackets (h : V6Text ip) :
  removePortFromIp ('[' :: (ip ++ [']'])) = some ip
  := by
  rw [removePortFromIp]
  simp only [h.takeWhile_close, List.drop_left]
  exact copyIp_of_lt h.lt

theorem removePortFromIp_port (h : V6Text ip) (port : Ip) :
  removePortFromIp ('[' :: (ip ++ ']' :: ':' :: port)) = some ip
  := by
  rw [removePortFromIp]
  simp only [h.takeWhile_close, List.drop_left]
  exact copyIp_of_lt h.lt

end V6Text

/-- Every spelling of an address has the address as its key. -/
theorem Spells.removePortFromIp_eq {ip s : Ip} (h : Spells ip s) :
  removePortFromIp s = some ip
  := by
  cases h with
  | v4 h => exact h.removePortFromIp_eq
  | v4Port port h hport => exact h.removePortFromIp_port hport
  | v6 h => exact h.removePortFromIp_eq
  | v6Brackets h => exact h.removePortFromIp_brackets
  | v6Port port h => exact h.removePortFromIp_port port

/-- The key of an address is the address. -/
theorem Spells.removePortFromIp_self {ip s : Ip} (h : Spells ip s) :
  removePortFromIp ip = some ip
  := by
  cases h with
  | v4 h => exact h.removePortFromIp_eq
  | v4Port port h hport => exact h.removePortFromIp_eq
  | v6 h => exact h.removePortFromIp_eq
  | v6Brackets h => exact h.removePortFromIp_eq
  | v6Port port h => exact h.removePortFromIp_eq

theorem Spells.lt {ip s : Ip} (h : Spells ip s) :
  ip.length < maxIpLength
  := by
  cases h with
  | v4 h => exact h.lt
  | v4Port port h hport => exact h.lt
  | v6 h => exact h.lt
  | v6Brackets h => exact h.lt
  | v6Port port h => exact h.lt

/-! ## Runs that spell addresses in other ways -/

/-- Two operations that are the same but for the spelling of the address. -/
inductive Op.Respelled : Op → Op → Prop where
  | same (op : Op) : Respelled op op
  | increaseFailRecord {ip s t : Ip} (isCheckLock : Bool) (conf : Option LockConf) :
    Spells ip s → Spells ip t →
      Respelled (.increaseFailRecord s isCheckLock conf) (.increaseFailRecord t isCheckLock conf)
  | cleanFailRecord {ip s t : Ip} :
    Spells ip s → Spells ip t → Respelled (.cleanFailRecord s) (.cleanFailRecord t)

/-- Two events at one time that are the same but for the spelling of the address. -/
structure Event.Respelled (e e' : Event) : Prop where
  now : e.now = e'.now
  op : e.op.Respelled e'.op

theorem Traced.increase_congr (x : Traced) {s t : Ip}
    (h : removePortFromIp s = removePortFromIp t) (isCheckLock : Bool) (conf : Option LockConf)
    (now : ℕ) :
  x.increase s isCheckLock conf now = x.increase t isCheckLock conf now
  := by simp only [increase, Store.increaseFailRecord, h]

theorem Traced.clean_congr (x : Traced) {s t : Ip}
    (h : removePortFromIp s = removePortFromIp t) :
  x.clean s = x.clean t
  := by simp only [clean, Store.cleanFailRecord, h]

/-- One step. -/
theorem Traced.step_respelled (x : Traced) {e e' : Event} (h : e.Respelled e') :
  x.step e = x.step e'
  := by
  obtain ⟨hnow, hop⟩ := h
  obtain ⟨now, hlt, op⟩ := e
  obtain ⟨now', hlt', op'⟩ := e'
  obtain rfl : now = now' := hnow
  cases hop with
  | same => rfl
  | increaseFailRecord isCheckLock conf hs ht =>
    apply x.increase_congr
    rw [hs.removePortFromIp_eq, ht.removePortFromIp_eq]
  | cleanFailRecord hs ht =>
    apply x.clean_congr
    rw [hs.removePortFromIp_eq, ht.removePortFromIp_eq]

/-- A whole run. -/
theorem Traced.after_respelled {events events' : List Event}
    (h : List.Forall₂ Event.Respelled events events') :
  after events = after events'
  := by
  unfold after
  generalize initial = x
  induction h generalizing x with
  | nil => rfl
  | cons he _ ih => rw [List.foldl_cons, List.foldl_cons, x.step_respelled he, ih]

/-! ## The status of an address -/

theorem lockStatusOf_nil (c : LockConf) (now : ℕ) :
  lockStatusOf c now [] = ⟨false, 0⟩
  := by
  have hcount : failCnt c.failInterval c.unlockTime now [] = 0 := by
    simp [failCnt, readIpFailRecord]
  rw [lockStatusOf, hcount]
  simp [readIpFailRecord, latestTime]

/-- After the records of an address are deleted, it has none. -/
theorem getOneLockStatus_cleanFailRecord (x : Store) {ip s t : Ip} (hs : Spells ip s)
    (ht : Spells ip t) (c : LockConf) (now : ℕ) :
  (x.cleanFailRecord s).getOneLockStatus t c now = some ⟨false, 0⟩
  := by
  simp only [Store.getOneLockStatus, ht.removePortFromIp_eq, Store.cleanFailRecord,
    hs.removePortFromIp_eq, Option.map_some, Function.update_self, lockStatusOf_nil]

/-- The file of an address is reported with the status of the address. -/
theorem getAllLockStatus_of_mem {x : Store} {names : List Ip} {c : LockConf} {now : ℕ}
    {statuses : List (Ip × IpLockStatus)} (h : x.getAllLockStatus names c now = some statuses)
    {ip s : Ip} (hs : Spells ip s) (hip : ip ∈ names) :
  ∃ status, (ip, status) ∈ statuses ∧ x.getOneLockStatus s c now = some status
  := by
  have hkey : x.getOneLockStatus ip c now = x.getOneLockStatus s c now := by
    rw [Store.getOneLockStatus, Store.getOneLockStatus, hs.removePortFromIp_self,
      hs.removePortFromIp_eq]
  rw [← hkey]
  unfold Store.getAllLockStatus at h
  induction names generalizing statuses with
  | nil => simp at hip
  | cons name names ih =>
    simp only [List.mapM_cons, Option.bind_eq_bind, Option.bind_eq_some_iff, Option.pure_def,
      Option.some_inj] at h
    obtain ⟨entry, ⟨name', hcopy, status, hstatus, rfl⟩, rest, hrest, rfl⟩ := h
    rcases List.mem_cons.mp hip with rfl | hip
    · rw [copyIp_of_lt hs.lt, Option.some_inj] at hcopy
      exact ⟨status, by simp [hcopy], hstatus⟩
    · obtain ⟨status', hmem, hstatus'⟩ := ih hrest hip
      exact ⟨status', List.mem_cons_of_mem _ hmem, hstatus'⟩

/-- The records of an address do not depend on its spelling: in runs that differ only in
spellings each of them has the same status, deleting the records by one of them deletes them
for all, and the address itself, which is the name of its file, is one of them. -/
theorem spellings_share_record {ip s t : Ip} (hs : Spells ip s) (ht : Spells ip t)
    {events events' : List Event} (h : List.Forall₂ Event.Respelled events events')
    (c : LockConf) (now : ℕ) :
  removePortFromIp s = some ip ∧ removePortFromIp ip = some ip
    ∧ (Traced.after events).store.getOneLockStatus s c now
      = (Traced.after events').store.getOneLockStatus t c now
    ∧ ((Traced.after events).store.cleanFailRecord s).getOneLockStatus t c now = some ⟨false, 0⟩
    ∧ ∀ names statuses, (Traced.after events).store.getAllLockStatus names c now = some statuses →
      ip ∈ names → ∃ status, (ip, status) ∈ statuses
        ∧ (Traced.after events').store.getOneLockStatus t c now = some status
  := by
  rw [Traced.after_respelled h]
  refine ⟨hs.removePortFromIp_eq, hs.removePortFromIp_self, ?_, ?_, ?_⟩
  · rw [Store.getOneLockStatus, Store.getOneLockStatus, hs.removePortFromIp_eq,
      ht.removePortFromIp_eq]
  · exact getOneLockStatus_cleanFailRecord _ hs ht c now
  · intro names statuses hall hip
    exact getAllLockStatus_of_mem hall ht hip

/-! ### The client `10.0.0.7` with its port -/

theorem v4Text_client :
  V4Text client
  where
  digits := by simp [client]
  lt := by decide

/-- The address with the port `80`. -/
def clientPort : Ip := client ++ ':' :: ['8', '0']

/-- Three failures within two seconds, the second one with the port. -/
def mixedFailures : List Event :=
  [⟨1000, by decide, .increaseFailRecord client false none⟩,
    ⟨1001, by decide, .increaseFailRecord clientPort false none⟩,
    ⟨1002, by decide, .increaseFailRecord client false none⟩]

/-- The same with the other spellings. -/
def respelledFailures : List Event :=
  [⟨1000, by decide, .increaseFailRecord clientPort false none⟩,
    ⟨1001, by decide, .increaseFailRecord client false none⟩,
    ⟨1002, by decide, .increaseFailRecord clientPort false none⟩]

/-- The failures lock `10.0.0.7` under either spelling, and are deleted for `10.0.0.7:80`. -/
theorem spellings_share_record_client :
  (Traced.after respelledFailures).store.getOneLockStatus client plainConf 1003
      = (Traced.after mixedFailures).store.getOneLockStatus clientPort plainConf 1003
    ∧ (Traced.after mixedFailures).store.getOneLockStatus clientPort plainConf 1003
      = some ⟨true, 1002⟩
    ∧ ((Traced.after mixedFailures).store.cleanFailRecord clientPort).getOneLockStatus client
      plainConf 1003 = some ⟨false, 0⟩
  := by
  have hclient : Spells client client := Spells.v4 v4Text_client
  have hport : Spells client clientPort := Spells.v4Port ['8', '0'] v4Text_client (by decide)
  have hrun : List.Forall₂ Event.Respelled mixedFailures respelledFailures :=
    .cons ⟨rfl, .increaseFailRecord false none hclient hport⟩
      (.cons ⟨rfl, .increaseFailRecord false none hport hclient⟩
        (.cons ⟨rfl, .increaseFailRecord false none hclient hport⟩ .nil))
  obtain ⟨-, -, hsame, hclean, -⟩ := spellings_share_record hport hclient hrun plainConf 1003
  exact ⟨hsame.symm, by decide, hclean⟩

end IpLock

end BmcAccount
