import BmcAccount.Linux.Records
import BmcAccount.LoginRule.Time
import BmcAccount.Account.Admin

/-!
# The file of IPMI users and the login module

The account service writes a line for each account to the file of IPMI users, and the login
module looks for the line of an account by its number and reads the fields by their
positions. Most of the fields are read as numbers of eight bits.

`readsBack_iff` says when the login module reads what the service has written.
-/

namespace BmcAccount

namespace Linux

open Fields Raise LoginRule.CheckLoginRule

/-! ## The login module -/

/-- `IPMI_USER_S`, the fields that are read. -/
structure IpmiUserS where
  userId : ℕ := 0
  userName : List Char := []
  userEnabled : ℕ := 0
  privilege1 : ℕ := 0
  userLockStatus : ℕ := 0
  userLoginRule : ℕ := 0
  userLoginInterface : ℕ := 0
  isExcludeUser : ℕ := 0
  isPasswordExpired : ℕ := 0
  roleId : ℕ := 0
deriving DecidableEq

/-- The bounds of `long`. -/
def longMin : ℤ := -2 ^ 63
def longMax : ℤ := 2 ^ 63 - 1

/-- `strtol` to the base ten: the number that a token begins with, within the bounds of
`long`, and whether it has set `errno`. A token without a number gives nothing. -/
def strtol (token : List Char) : Option (ℤ × Bool) :=
  (scanInt token).map fun p =>
    if p.1 < longMin then (longMin, true)
    else if longMax < p.1 then (longMax, true)
    else (p.1, false)

/-- `parse_line_token_to_uint8`: a number of eight bits is never a bound of `long`, so the
only error is a token without a number. -/
def parseLineTokenToUint8 (token : List Char) : Option ℕ :=
  (strtol token).map fun n => lowBits 8 n.1

/-- `strlen`: the bytes of a text. -/
def strlen (token : List Char) : ℕ :=
  (token.map Char.utf8Size).sum

/-- A token of a line at its position. -/
def setToken (u : IpmiUserS) (token : List Char) : ℕ → Option IpmiUserS
  | 1 => (parseLineTokenToUint8 token).map fun n => { u with userId := n }
  | 2 => if 17 ≤ strlen token then none else some { u with userName := token }
  | 7 => (parseLineTokenToUint8 token).map fun n => { u with userEnabled := n }
  | 12 => (parseLineTokenToUint8 token).map fun n => { u with privilege1 := n }
  | 14 => (parseLineTokenToUint8 token).map fun n => { u with userLockStatus := n }
  | 15 => (parseLineTokenToUint8 token).map fun n => { u with userLoginRule := n }
  | 16 => (parseLineTokenToUint8 token).map fun n => { u with userLoginInterface := n }
  | 17 => (parseLineTokenToUint8 token).map fun n => { u with isExcludeUser := n }
  | 18 => (parseLineTokenToUint8 token).map fun n => { u with isPasswordExpired := n }
  | 19 => (parseLineTokenToUint8 token).map fun n => { u with roleId := n }
  | _ => some u

/-- `parse_line_to_struct`. -/
def parseLineToStruct (line : List Char) (u : IpmiUserS) : Option IpmiUserS :=
  ((line.splitOn ':').zipIdx 1).foldlM (fun u token => setToken u token.1 token.2) u

/-- The loop of `get_user`; `errno` is left by the calls before. -/
def getUserLoop (uid : ℤ) : Bool → List (List Char) → Option IpmiUserS
  | _, [] => none
  | errno, line :: lines =>
    if line = [] then none
    else
      match strtol (line.takeWhile (· ≠ ':')) with
      | none => getUserLoop uid errno lines
      | some n =>
        let id := n.1.bmod (2 ^ 32)
        if (errno || n.2) && id = 0 then getUserLoop uid (errno || n.2) lines
        else if id ≠ uid then getUserLoop uid (errno || n.2) lines
        else parseLineToStruct line {}

/-- `get_user`. -/
def getUser (errno : Bool) (uid : ℤ) (data : List Char) : Option IpmiUserS :=
  getUserLoop uid errno (data.splitOn '\n')

/-! ## The file -/

/-- The entry of an account. -/
def ipmiUserOf (s : State) (visible : Bool) (id : ℕ) (a : Account) : IpmiUser :=
  (getAccountFileLine s visible id a none).ipmiUser

/-- The file of IPMI users of the given accounts. -/
def ipmiFile (s : State) (visible : Bool) (accounts : List (ℕ × Account)) : List Char :=
  ['\n'].intercalate (accounts.map fun e => (ipmiUserOf s visible e.1 e.2).dataToLine)

/-- An account as the service keeps them: the identifier is one of a local account, of an
account of the vendor or of the chassis manager, the name is accepted and the role is
known. -/
structure Kept (id : ℕ) (a : Account) : Prop where
  id_range : minUserNum ≤ id ∧ id ≤ maxUserNum ∨ 101 ≤ id ∧ id ≤ 115
    ∨ id = interChassisAccountId
  name : checkUserName a.data.userName = true
  role : (RoleType.ofValue a.data.roleId).isSome = true

/-- What the login module should know about an account. -/
structure Shows (s : State) (id : ℕ) (a : Account) (u : IpmiUserS) : Prop where
  name : u.userName = (fileName a.data.userName).toList
  enabled : u.userEnabled = if a.data.enabled then 1 else 0
  privilege : some u.privilege1
    = (RoleType.ofValue a.data.roleId).map fun r => (roleToPrivilege r).value
  locked : u.userLockStatus = if a.data.locked then 1 else 0
  rules : u.userLoginRule = a.data.loginRuleIds
  interfaces : u.userLoginInterface = a.data.loginInterface
  exclude : u.isExcludeUser = if s.checkIsEmergencyUser id then 1 else 0
  expired : u.isPasswordExpired = if a.data.passwordExpiration = 0 then 1 else 0
  role : u.roleId = a.data.roleId

/-- The login module reads back every account. -/
def ReadsBack (errno : Bool) (s : State) (visible : Bool) (accounts : List (ℕ × Account)) :
    Prop :=
  ∀ e ∈ accounts, ∃ u, getUser errno e.1 (ipmiFile s visible accounts) = some u
    ∧ Shows s e.1 e.2 u

/-! ## Numbers in a line -/

/-- The number of eight bits that is read off the decimal form of `n`. -/
def readByte (n : ℕ) : ℕ :=
  lowBits 8 (if longMax < n then longMax else n)

theorem readByte_eq_self_iff (n : ℕ) :
  readByte n = n ↔ n < 256
  := by
  unfold readByte lowBits longMax
  split
  · omega
  · omega

theorem readByte_of_lt {n : ℕ} (h : n < 256) :
  readByte n = n
  :=
  (readByte_eq_self_iff n).mpr h

theorem scanInt_toDigits (n : ℕ) :
  scanInt (Nat.toDigits 10 n) = some ((n : ℤ), [])
  := by
  have hscan := scanInt_append (r := []) (Nat.toDigits_ne_nil (b := 10) (n := n))
    (fun c hc => Nat.isDigit_of_mem_toDigits (by decide) (by decide) hc) (by simp [StopsDigits])
  rw [List.append_nil] at hscan
  rw [hscan, number, Nat.ofDigitChars_ten_toDigits]

theorem strtol_toDigits (n : ℕ) :
  strtol (Nat.toDigits 10 n)
    = some (if longMax < n then (longMax, true) else ((n : ℤ), false))
  := by
  have hmin : ¬ (n : ℤ) < longMin := by
    unfold longMin
    omega
  rw [strtol, scanInt_toDigits, Option.map_some, if_neg hmin]

@[simp]
theorem parseLineTokenToUint8_toDigits (n : ℕ) :
  parseLineTokenToUint8 (Nat.toDigits 10 n) = some (readByte n)
  := by
  rw [parseLineTokenToUint8, strtol_toDigits, Option.map_some, readByte]
  split <;> rfl

/-! ## Characters of a line -/

/-- A text that can be a field of a line. -/
structure PlainText (t : List Char) : Prop where
  colon : ':' ∉ t
  newline : '\n' ∉ t

theorem plainText_toDigits (n : ℕ) :
  PlainText (Nat.toDigits 10 n)
  := by
  have hdigit : ∀ c ∈ Nat.toDigits 10 n, c.isDigit = true :=
    fun c hc => Nat.isDigit_of_mem_toDigits (by decide) (by decide) hc
  constructor
  · intro h
    exact absurd (hdigit _ h) (by decide)
  · intro h
    exact absurd (hdigit _ h) (by decide)

/-- The characters of a name are of one byte, and none of them separates fields or lines. -/
theorem isNameChar_spec {c : Char} (h : isNameChar c = true) :
  c ≠ '\n' ∧ c.utf8Size = 1
  := by
  have hrange : 10 < c.val.toNat ∧ c.val.toNat ≤ 127 := by
    simp only [isNameChar, Char.isAlphanum, Char.isAlpha, Char.isUpper, Char.isLower,
      Char.isDigit, Bool.or_eq_true, Bool.and_eq_true, decide_eq_true_eq, ge_iff_le,
      Char.le_def, UInt32.le_iff_toNat_le] at h
    rcases h with (h | h) | h
    · change ((65 ≤ c.val.toNat ∧ c.val.toNat ≤ 90) ∨ (97 ≤ c.val.toNat ∧ c.val.toNat ≤ 122))
        ∨ (48 ≤ c.val.toNat ∧ c.val.toNat ≤ 57) at h
      omega
    · change 43 ≤ c.val.toNat ∧ c.val.toNat ≤ 61 at h
      omega
    · simp only [List.mem_cons, List.not_mem_nil, or_false] at h
      rcases h with rfl | rfl | rfl | rfl | rfl | rfl | rfl | rfl | rfl | rfl | rfl | rfl | rfl | rfl
        | rfl | rfl | rfl | rfl | rfl | rfl | rfl <;> decide
  constructor
  · rintro rfl
    exact absurd hrange.1 (by decide)
  · unfold Char.utf8Size
    exact if_pos (UInt32.le_iff_toNat_le.mpr hrange.2)

/-- A name that is accepted is written as a field of at most sixteen bytes. -/
theorem plainText_fileName {name : String} (h : checkUserName name = true) :
  PlainText (fileName name).toList ∧ strlen (fileName name).toList < 17
  := by
  unfold checkUserName at h
  unfold fileName
  split at h
  case isTrue hroot =>
    rw [if_pos hroot]
    exact ⟨⟨by decide, by decide⟩, by decide⟩
  case isFalse hroot =>
    rw [if_neg hroot]
    split at h
    case isTrue => simp at h
    case isFalse =>
    split at h
    case isTrue => simp at h
    case isFalse =>
    unfold defaultNamePattern at h
    generalize name.toList = t at h ⊢
    cases t with
    | nil => simp at h
    | cons c cs =>
      simp only [Bool.and_eq_true, List.all_eq_true, Bool.not_eq_true', decide_eq_true_eq] at h
      obtain ⟨⟨hall, -⟩, hlen⟩ := h
      have hsize : (c :: cs).map Char.utf8Size = (c :: cs).map fun _ => 1 :=
        List.map_congr_left fun d hd => (isNameChar_spec (hall d hd).1).2
      refine ⟨⟨?_, ?_⟩, ?_⟩
      · intro hmem
        exact absurd (hall _ hmem).2 (by decide)
      · intro hmem
        exact (isNameChar_spec (hall _ hmem).1).1 rfl
      · rw [strlen, hsize]
        simp
        omega

/-! ## The line of an account -/

section Line

variable {s : State} {visible : Bool} {id : ℕ} {a : Account}

/-- Every field of the line of an account is a number, the name or an `x`. -/
theorem plainText_fields (h : Kept id a) {f : List Char}
    (hf : f ∈ (ipmiUserOf s visible id a).fields) :
  PlainText f
  := by
  obtain ⟨r, hr⟩ := Option.isSome_iff_exists.mp h.role
  have hname := (plainText_fileName h.name).1
  have hx : PlainText ['x'] := ⟨by decide, by decide⟩
  simp only [IpmiUser.fields, ipmiUserOf, AccountLine.ipmiUser, getAccountFileLine, hr,
    Option.map_some, Option.getD_some, Value.str, List.mem_cons, List.not_mem_nil, or_false] at hf
  rcases hf with rfl | rfl | rfl | rfl | rfl | rfl | rfl | rfl | rfl | rfl | rfl | rfl | rfl
    | rfl | rfl | rfl | rfl | rfl | rfl
  all_goals first
    | exact plainText_toDigits _
    | exact hname
    | exact hx

theorem splitOn_dataToLine (h : Kept id a) :
  (ipmiUserOf s visible id a).dataToLine.splitOn ':' = (ipmiUserOf s visible id a).fields
  := by
  unfold IpmiUser.dataToLine
  apply List.splitOn_intercalate
  · intro f hf
    exact (plainText_fields h hf).colon
  · simp [IpmiUser.fields]

theorem newline_dataToLine (h : Kept id a) :
  '\n' ∉ (ipmiUserOf s visible id a).dataToLine
  := by
  intro hmem
  rcases mem_intercalate hmem with hsep | ⟨f, hf, hmem⟩
  · exact absurd hsep (by decide)
  · exact (plainText_fields h hf).newline hmem

/-- What is read of the line of an account. -/
def readOf (s : State) (id : ℕ) (a : Account) : IpmiUserS where
  userId := readByte id
  userName := (fileName a.data.userName).toList
  userEnabled := if a.data.enabled then 1 else 0
  privilege1 := readByte (((RoleType.ofValue a.data.roleId).map fun r =>
    (roleToPrivilege r).value).getD 0)
  userLockStatus := if a.data.locked then 1 else 0
  userLoginRule := readByte a.data.loginRuleIds
  userLoginInterface := readByte a.data.loginInterface
  isExcludeUser := if s.checkIsEmergencyUser id then 1 else 0
  isPasswordExpired := if a.data.passwordExpiration = 0 then 1 else 0
  roleId := readByte a.data.roleId

theorem readByte_flag {p : Prop} [Decidable p] :
  readByte (if p then 1 else 0) = if p then 1 else 0
  := by
  apply readByte_of_lt
  split <;> decide

theorem parseLineToStruct_dataToLine (h : Kept id a) :
  parseLineToStruct (ipmiUserOf s visible id a).dataToLine {} = some (readOf s id a)
  := by
  obtain ⟨r, hr⟩ := Option.isSome_iff_exists.mp h.role
  have hlen : ¬ 17 ≤ strlen (fileName a.data.userName).toList :=
    Nat.not_le.mpr (plainText_fileName h.name).2
  unfold parseLineToStruct
  rw [splitOn_dataToLine h]
  simp only [IpmiUser.fields, ipmiUserOf, AccountLine.ipmiUser, getAccountFileLine, hr,
    Option.map_some, Option.getD_some, Value.str, List.zipIdx_cons, List.zipIdx_nil,
    List.foldlM_cons, List.foldlM_nil, setToken, parseLineTokenToUint8_toDigits, hlen,
    if_false, readByte_flag, Option.bind_eq_bind, Option.bind_some, Option.pure_def, readOf]

/-- The first field of a line is the number of the account. -/
theorem takeWhile_dataToLine :
  (ipmiUserOf s visible id a).dataToLine.takeWhile (· ≠ ':') = Nat.toDigits 10 id
  := by
  have hcolon : ∀ c ∈ Nat.toDigits 10 id, decide (c ≠ ':') = true := by
    intro c hc
    rw [decide_eq_true_eq]
    rintro rfl
    exact (plainText_toDigits id).colon hc
  obtain ⟨rest, hline⟩ : ∃ rest,
      (ipmiUserOf s visible id a).dataToLine = Nat.toDigits 10 id ++ ':' :: rest := by
    unfold IpmiUser.dataToLine IpmiUser.fields
    exact ⟨_, by simp [ipmiUserOf, AccountLine.ipmiUser, getAccountFileLine, Value.str,
      List.intercalate, List.intersperse]; rfl⟩
  rw [hline, List.takeWhile_append_of_pos hcolon]
  simp

end Line

/-! ## The lines of the file -/

theorem Kept.id_bounds {id : ℕ} {a : Account} (h : Kept id a) :
  0 < id ∧ id < 256
  := by
  have hrange := h.id_range
  unfold minUserNum maxUserNum interChassisAccountId at hrange
  omega

/-- The line of an account is taken if its number is looked for, and passed over if not. -/
theorem getUserLoop_cons {s : State} {visible errno : Bool} {uid id : ℕ} {a : Account}
    {lines : List (List Char)} (h : Kept id a) :
  getUserLoop uid errno ((ipmiUserOf s visible id a).dataToLine :: lines)
    = if id = uid then some (readOf s id a) else getUserLoop uid errno lines
  := by
  have hbounds := h.id_bounds
  have hbmod : (id : ℤ).bmod (2 ^ 32) = id := by
    apply Int.bmod_eq_of_le_mul_two
    · omega
    · change (id : ℤ) * 2 < 4294967296
      omega
  have hlong : ¬ longMax < (id : ℤ) := by
    unfold longMax
    omega
  have hne : (ipmiUserOf s visible id a).dataToLine ≠ [] := by
    intro hnil
    have hfields := @splitOn_dataToLine s visible id a h
    rw [hnil] at hfields
    exact absurd hfields (by simp [IpmiUser.fields])
  rw [getUserLoop, if_neg hne, takeWhile_dataToLine, strtol_toDigits, if_neg hlong]
  simp only [hbmod, Int.natCast_eq_zero, Nat.ne_of_gt hbounds.1, decide_false, Bool.and_false,
    Bool.false_eq_true, if_false, Bool.or_false, ne_eq, Int.natCast_inj,
    parseLineToStruct_dataToLine h, ite_not]

theorem getUserLoop_map_dataToLine {s : State} {visible errno : Bool}
    {accounts : List (ℕ × Account)} (hkept : ∀ e ∈ accounts, Kept e.1 e.2)
    (hnodup : (accounts.map Prod.fst).Nodup) {e : ℕ × Account} (he : e ∈ accounts) :
  getUserLoop e.1 errno (accounts.map fun e => (ipmiUserOf s visible e.1 e.2).dataToLine)
    = some (readOf s e.1 e.2)
  := by
  induction accounts with
  | nil => exact absurd he List.not_mem_nil
  | cons b rest ih =>
    rw [List.map_cons, List.nodup_cons] at hnodup
    rw [List.map_cons, getUserLoop_cons (hkept b List.mem_cons_self)]
    split
    case isTrue hid =>
      rcases List.mem_cons.mp he with rfl | he
      · rfl
      · exact absurd (List.mem_map.mpr ⟨e, he, hid.symm⟩) hnodup.1
    case isFalse hid =>
      apply ih
      · exact fun e he => hkept e (List.mem_cons_of_mem _ he)
      · exact hnodup.2
      · rcases List.mem_cons.mp he with rfl | he
        · exact absurd rfl hid
        · exact he

/-- A file is read line by line. -/
theorem getUser_ipmiFile {s : State} {visible errno : Bool}
    {accounts : List (ℕ × Account)} (hkept : ∀ e ∈ accounts, Kept e.1 e.2)
    (hnodup : (accounts.map Prod.fst).Nodup) {e : ℕ × Account} (he : e ∈ accounts) :
  getUser errno e.1 (ipmiFile s visible accounts) = some (readOf s e.1 e.2)
  := by
  have hsplit : (ipmiFile s visible accounts).splitOn '\n'
      = accounts.map fun e => (ipmiUserOf s visible e.1 e.2).dataToLine := by
    apply List.splitOn_intercalate
    · intro l hl
      obtain ⟨b, hb, rfl⟩ := List.mem_map.mp hl
      exact newline_dataToLine (hkept b hb)
    · intro hnil
      rw [List.map_eq_nil_iff.mp hnil] at he
      exact List.not_mem_nil he
  unfold getUser
  rw [hsplit]
  exact getUserLoop_map_dataToLine hkept hnodup he

/-! ## What the login module knows -/

theorem shows_readOf_iff {s : State} {id : ℕ} {a : Account} (h : Kept id a) :
  Shows s id a (readOf s id a) ↔ a.data.loginRuleIds < 256 ∧ a.data.loginInterface < 256
  := by
  obtain ⟨r, hr⟩ := Option.isSome_iff_exists.mp h.role
  have hprivilege : (roleToPrivilege r).value < 256 := by
    cases r <;> simp [roleToPrivilege, IpmiPrivilege.value]
  have hrole : a.data.roleId < 256 := by
    by_contra hlarge
    simp only [RoleType.ofValue] at hr
    split_ifs at hr <;> omega
  rw [← readByte_eq_self_iff, ← readByte_eq_self_iff]
  constructor
  · intro hshows
    exact ⟨hshows.rules, hshows.interfaces⟩
  · rintro ⟨hrules, hinterfaces⟩
    exact {
      name := rfl
      enabled := rfl
      privilege := by simp [readOf, hr, readByte_of_lt hprivilege]
      locked := rfl
      rules := hrules
      interfaces := hinterfaces
      exclude := rfl
      expired := rfl
      role := readByte_of_lt hrole }

/-- The login module reads back every account if and only if the masks of the login rules and
of the login interfaces have eight bits. -/
theorem readsBack_iff (errno : Bool) (s : State) (visible : Bool)
    (accounts : List (ℕ × Account)) (hkept : ∀ e ∈ accounts, Kept e.1 e.2)
    (hnodup : (accounts.map Prod.fst).Nodup) :
  ReadsBack errno s visible accounts
    ↔ ∀ e ∈ accounts, e.2.data.loginRuleIds < 256 ∧ e.2.data.loginInterface < 256
  := by
  apply forall₂_congr
  intro e he
  rw [getUser_ipmiFile hkept hnodup he, ← shows_readOf_iff (s := s) (hkept e he)]
  simp

/-- Two accounts, one of them with the name of the system's administrator. -/
theorem readsBack_root :
  ReadsBack true (plainState []) true
    [(2, plainAccount "root" 4 223), (17, plainAccount "alice" 5 128)]
  := by
  refine (readsBack_iff _ _ _ _ ?_ ?_).mpr ?_
  · intro e he
    simp only [List.mem_cons, List.not_mem_nil, or_false] at he
    rcases he with rfl | rfl
    · exact ⟨by decide, by decide, by decide⟩
    · exact ⟨by decide, by decide, by decide⟩
  · simp
  · simp [plainAccount, Account.blank]

/-- The account of a local user that is allowed the login interfaces of the given name. -/
def interfaceAccount (name : String) : Option Account :=
  (exec (setLoginInterface plainEnv 3 [name])
    (plainState [(2, plainAccount "Administrator" 4 223), (3, plainAccount "alice" 2 223)])
    ).2.accounts.lookup 3

/-- The name `default` stands for more than eight bits. -/
theorem defaultInterface_not_readsBack :
  ¬ ∀ (errno visible : Bool) (s : State) (a : Account),
    interfaceAccount "default" = some a → Kept 3 a → ReadsBack errno s visible [(3, a)]
  := by
  intro h
  obtain ⟨a, ha⟩ : ∃ a, interfaceAccount "default" = some a :=
    Option.isSome_iff_exists.mp (by decide +kernel)
  have hdata : a.data.userName = "alice" ∧ a.data.roleId = 2
      ∧ a.data.loginInterface = 2147483647 := by
    have hall : ∀ b ∈ interfaceAccount "default", b.data.userName = "alice"
        ∧ b.data.roleId = 2 ∧ b.data.loginInterface = 2147483647 := by decide +kernel
    exact hall a ha
  have hkept : Kept 3 a := {
    id_range := by decide
    name := by rw [hdata.1]; decide
    role := by rw [hdata.2.1]; decide }
  obtain ⟨u, hu, hshows⟩ := h false true (plainState []) a ha hkept (3, a) List.mem_cons_self
  rw [getUser_ipmiFile (by simpa using hkept) (by simp) List.mem_cons_self,
    Option.some.injEq] at hu
  subst hu
  have hlt := ((shows_readOf_iff hkept).mp hshows).2
  rw [hdata.2.2] at hlt
  exact absurd hlt (by decide)

end Linux

end BmcAccount
