import BmcAccount.Account.Types

/-!
# Password history

The rows of the password history of an account carry sequence numbers, the most recent
password having number `1`. The database keeps the rows in no particular order and lists
them by descending sequence number. Inserting a password renumbers and deletes rows in one
pass over that listing; changing the number of passwords to keep deletes the rows above it
and seeds an empty history with the current password.

`Numbered rows l` says that `rows` are the rows of the passwords `l`, the most recent one
first, numbered `1`, `2`, … in this order. Both operations keep a history numbered.
-/

namespace BmcAccount

namespace History

/-- `history_password:get`: the rows by descending sequence number. -/
def get (rows : List HistoryRow) : List HistoryRow :=
  rows.insertionSort fun r r' => r'.sequenceNumber ≤ r.sequenceNumber

/-- The pass of `history_password:insert` over the rows: `idx` counts down, rows that are
to get a number above `count` are deleted, and the others get the number `idx`. -/
def shift (count : ℕ) : ℕ → List HistoryRow → List HistoryRow
  | _, [] => []
  | idx, r :: rows =>
    if count < idx then shift count (idx - 1) rows
    else { r with sequenceNumber := idx } :: shift count (idx - 1) rows

/-- `history_password:insert`. -/
def insert (password : String) (kdfPassword : Option String) (count : ℕ)
    (rows : List HistoryRow) : List HistoryRow :=
  if count = 0 then rows
  else shift count ((get rows).length + 1) (get rows) ++ [⟨1, password, kdfPassword⟩]

/-- `history_password:update`: the insertion into an empty history is made without a count
to compare with, so it adds the row and does nothing else. -/
def update (password : String) (kdfPassword : Option String) (count : ℕ)
    (rows : List HistoryRow) : List HistoryRow :=
  let seeded := if (get rows).length = 0 ∧ 0 < count then rows ++ [⟨1, password, kdfPassword⟩]
    else rows
  seeded.filter fun r => r.sequenceNumber ≤ count

/-- The part of a hash that `string.match` captures by `(%$.-%$.-%$)(.*)`: from the first
dollar sign to the third. -/
def saltOf (hash : String) : Option String :=
  match hash.toList.dropWhile (· ≠ '$') with
  | [] => none
  | _ :: rest =>
    match rest.dropWhile (· ≠ '$') with
    | [] => none
    | _ :: rest' =>
      match rest'.dropWhile (· ≠ '$') with
      | [] => none
      | _ => some (String.ofList
          ('$' :: rest.takeWhile (· ≠ '$') ++ '$' :: rest'.takeWhile (· ≠ '$') ++ ['$']))

/-- `check_password_same`: the new password hashed with the salt of the old hash. -/
def checkPasswordSame (crypt : String → String → String) (old : Option String)
    (new : String) : Bool :=
  match old with
  | none => false
  | some hash =>
    match saltOf hash with
    | none => new == hash
    | some salt => crypt new salt == hash

/-- `history_password:check`: no row holds the password. -/
def check (crypt : String → String → String) (password : String) (rows : List HistoryRow) :
    Bool :=
  (get rows).all fun r =>
    !(checkPasswordSame crypt r.kdfPassword password
      || checkPasswordSame crypt (some r.password) password)

/-! ## Numbered histories -/

/-- The rows of the passwords `l`, numbered from `n` on. -/
def number (n : ℕ) : List (String × Option String) → List HistoryRow
  | [] => []
  | c :: l => ⟨n, c.1, c.2⟩ :: number (n + 1) l

/-- The rows are those of the passwords `l`, the most recent one first. -/
def Numbered (rows : List HistoryRow) (l : List (String × Option String)) : Prop :=
  rows.Perm (number 1 l)

@[simp]
theorem length_number (n : ℕ) (l : List (String × Option String)) :
  (number n l).length = l.length
  := by
  induction l generalizing n with
  | nil => rfl
  | cons c l ih => simp [number, ih]

theorem number_concat (n : ℕ) (l : List (String × Option String)) (c : String × Option String) :
  number n (l ++ [c]) = number n l ++ [⟨n + l.length, c.1, c.2⟩]
  := by
  induction l generalizing n with
  | nil => rfl
  | cons d l ih =>
    simp only [List.cons_append, number, ih, List.length_cons]
    rw [Nat.add_right_comm, Nat.add_assoc n l.length 1]

/-- The sequence numbers of a numbered history are `n`, `n + 1`, … -/
theorem map_sequenceNumber_number (n : ℕ) (l : List (String × Option String)) :
  (number n l).map HistoryRow.sequenceNumber = List.range' n l.length
  := by
  induction l generalizing n with
  | nil => rfl
  | cons c l ih => simp [number, ih, List.range'_succ]

theorem getElem?_number (n i : ℕ) (l : List (String × Option String)) :
  (number n l)[i]? = l[i]?.map fun c => ⟨n + i, c.1, c.2⟩
  := by
  induction l generalizing n i with
  | nil => rfl
  | cons c l ih =>
    cases i with
    | zero => rfl
    | succ i =>
      simp only [number, List.getElem?_cons_succ, ih]
      rw [Nat.add_assoc, Nat.add_comm 1 i]

theorem filter_number (n count : ℕ) (l : List (String × Option String)) :
  (number n l).filter (fun r => r.sequenceNumber ≤ count) = number n (l.take (count + 1 - n))
  := by
  induction l generalizing n with
  | nil => simp [number]
  | cons c l ih =>
    by_cases h : n ≤ count
    · obtain ⟨k, hk⟩ : ∃ k, count + 1 - n = k + 1 := ⟨count - n, by omega⟩
      have hk' : count + 1 - (n + 1) = k := by omega
      simp [number, h, hk, ih, hk']
    · have hk : count + 1 - n = 0 := by omega
      have hk' : count + 1 - (n + 1) = 0 := by omega
      simp [number, h, hk, ih, hk']

/-- Listing a numbered history by descending number gives the oldest password first. -/
theorem Numbered.get_eq {rows : List HistoryRow} {l : List (String × Option String)}
    (h : Numbered rows l) :
  get rows = (number 1 l).reverse
  := by
  have hsorted : (number 1 l).reverse.Pairwise
      fun r r' => r'.sequenceNumber ≤ r.sequenceNumber := by
    rw [List.pairwise_reverse]
    have hlt : ((number 1 l).map HistoryRow.sequenceNumber).Pairwise (· < ·) := by
      rw [map_sequenceNumber_number]
      exact List.pairwise_lt_range'
    exact (List.pairwise_map.mp hlt).imp Nat.le_of_lt
  have hperm : (get rows).Perm (number 1 l).reverse :=
    (List.perm_insertionSort _ rows).trans (h.trans (List.reverse_perm _).symm)
  have hinj : ∀ r ∈ number 1 l, ∀ r' ∈ number 1 l,
      r.sequenceNumber = r'.sequenceNumber → r = r' := by
    have hnodup : ((number 1 l).map HistoryRow.sequenceNumber).Nodup := by
      rw [map_sequenceNumber_number]
      exact List.nodup_range'
    intro r hr r' hr'
    exact List.inj_on_of_nodup_map hnodup hr hr'
  apply hperm.eq_of_pairwise _ (List.pairwise_insertionSort _ rows) hsorted
  intro r r' hr hr' hle hle'
  have hr := List.mem_reverse.mp (hperm.mem_iff.mp hr)
  exact hinj r hr r' (List.mem_reverse.mp hr') (le_antisymm hle' hle)

theorem shift_number (count n : ℕ) (l : List (String × Option String)) :
  shift count (n + l.length) (number n l).reverse
    = ((number (n + 1) l).filter fun r => r.sequenceNumber ≤ count).reverse
  := by
  induction l using List.reverseRecOn with
  | nil => rfl
  | append_singleton l c ih =>
    simp only [number_concat, List.reverse_append, List.reverse_singleton,
      List.singleton_append, List.length_append, List.length_singleton, List.filter_append]
    simp only [← Nat.add_assoc, shift, Nat.add_sub_cancel, ih]
    rw [Nat.add_right_comm n 1 l.length]
    by_cases h : count < n + l.length + 1
    · simp [h]
    · simp [h, Nat.le_of_not_lt h]

/-- Inserting a password into a numbered history puts it first and keeps `count`. -/
theorem Numbered.insert {rows : List HistoryRow} {l : List (String × Option String)}
    (h : Numbered rows l) (password : String) (kdfPassword : Option String) {count : ℕ}
    (hcount : 0 < count) :
  Numbered (History.insert password kdfPassword count rows)
    (((password, kdfPassword) :: l).take count)
  := by
  obtain ⟨k, rfl⟩ : ∃ k, count = k + 1 := ⟨count - 1, by omega⟩
  have hlen : (number 1 l).reverse.length + 1 = 1 + l.length := by
    simp [Nat.add_comm]
  unfold History.insert Numbered
  rw [if_neg (by omega), h.get_eq, hlen, shift_number, filter_number]
  rw [show k + 1 + 1 - (1 + 1) = k by omega, List.take_succ_cons, number]
  exact (List.perm_append_singleton _ _).trans ((List.reverse_perm _).cons _)

/-- Changing the number of passwords to keep drops the oldest ones, and gives an empty
history the current password. -/
theorem Numbered.update {rows : List HistoryRow} {l : List (String × Option String)}
    (h : Numbered rows l) (password : String) (kdfPassword : Option String) (count : ℕ) :
  Numbered (History.update password kdfPassword count rows)
    ((if l = [] ∧ 0 < count then [(password, kdfPassword)] else l).take count)
  := by
  have hlen : (get rows).length = l.length := by
    rw [h.get_eq, List.length_reverse, length_number]
  unfold History.update Numbered
  simp only [hlen, List.length_eq_zero_iff]
  by_cases hl : l = [] ∧ 0 < count
  · obtain ⟨rfl, hcount⟩ := hl
    obtain rfl : rows = [] := List.perm_nil.mp h
    rw [if_pos ⟨rfl, hcount⟩, if_pos ⟨rfl, hcount⟩]
    have := filter_number 1 count [(password, kdfPassword)]
    rw [Nat.add_sub_cancel] at this
    rw [← this]
    rfl
  · rw [if_neg hl, if_neg hl]
    have := filter_number 1 count l
    rw [Nat.add_sub_cancel] at this
    rw [← this]
    exact h.filter _

theorem check_eq_false {crypt : String → String → String} {rows : List HistoryRow}
    {password : String} {r : HistoryRow} (hr : r ∈ rows)
    (hsame : checkPasswordSame crypt (some r.password) password = true) :
  check crypt password rows = false
  := by
  unfold check
  rw [List.all_eq_false]
  use r, (List.mem_insertionSort _).mpr hr
  simp [hsame]

end History

end BmcAccount
