import BmcAccount.Lib.CString

/-!
# The password policy of local accounts

`LocalPasswordValidator:basic_validate` measures the password in Lua and leaves its length, its
likeness to the user name and its characters to C. A rule for whole byte strings says what is
asked for; C reads the user name and the password only up to their first zero byte, and compares
lengths as 32 bits. The two judge a password in the same way unless the bytes that are not read,
or the bits that are not compared, matter to the rule.
-/

namespace BmcAccount

namespace PasswordPolicy

open CString

/-! ## The checks in C -/

/-- `PWD_PASS_SPECIAL`. -/
def pwdPassSpecial : List UInt8 :=
  ofString "\x60~!@#$%^&*()-_=+|\\[\x7b\x7d];:\x27\x22,<.>/? "

/-- `RET_OK` and `RET_ERR`. -/
def retOk : ℤ := 0
def retErr : ℤ := -1

section

variable (sha256 : List UInt8 → Vector UInt8 32)

/-- `user_strcmp_s`. -/
def userStrcmpS (oldStr newStr : List UInt8) : ℤ :=
  let oldSha := (sha256 (text oldStr)).toList
  let newSha := (sha256 (text newStr)).toList
  let ret := (List.range 32).foldl
    (fun ret i => ret ||| (byteAt oldSha i ^^^ byteAt newSha i)) 0
  if ret ≠ 0 then retErr else retOk

/-- `isstrrev`: the difference of the lengths is a number of 32 bits. -/
def isstrrev (newStr oldStr : List UInt8) : Bool :=
  let newLen := strlen newStr
  let oldLen := strlen oldStr
  if newLen = 0 ∨ oldLen = 0 then false
  else
    let ret := (List.range newLen).foldl
      (fun ret i => ret |||
        (byteAt newStr (i % newLen) ^^^ byteAt oldStr ((newLen - 1 - i) % oldLen)))
      ((newLen % 2 ^ 32 ^^^ oldLen) % 2 ^ 32)
    ret = 0

/-- `islower`, `isupper` and `isdigit` of the C locale. -/
def islower (c : UInt8) : Bool := 97 ≤ c && c ≤ 122
def isupper (c : UInt8) : Bool := 65 ≤ c && c ≤ 90
def isdigit (c : UInt8) : Bool := 48 ≤ c && c ≤ 57

/-- `isspecial`: `strchr` finds the zero byte at the end, too. -/
def isspecial (c : UInt8) : Bool :=
  c ∈ pwdPassSpecial || c = 0

/-- What `dal_check_complexity_status` has seen so far. -/
structure Seen where
  isconlows : Bool
  isconsups : Bool
  iscondigs : Bool
  isconspcs : Bool

/-- One round of the loop of `dal_check_complexity_status`. -/
def Seen.see (f : Seen) (c : UInt8) : Seen where
  isconlows := if !f.isconlows then islower c else f.isconlows
  isconsups := if !f.isconsups then isupper c else f.isconsups
  iscondigs := if !f.iscondigs then isdigit c else f.iscondigs
  isconspcs := if !f.isconspcs then isspecial c else f.isconspcs

/-- The loop of `dal_check_complexity_status`, up to the zero byte. -/
def Seen.scan : Seen → List UInt8 → Seen
  | f, [] => f
  | f, c :: pw => if c = 0 then f else (f.see c).scan pw

/-- `dal_check_complexity_status`. -/
def dalCheckComplexityStatus (pw : List UInt8) : ℤ :=
  let f := (Seen.mk false false false false).scan pw
  if f.isconspcs.toNat ≠ 1
      ∨ f.isconlows.toNat + f.isconsups.toNat + f.iscondigs.toNat < 2 then retErr
  else retOk

/-- `is_pass_complexity_check_pass`. -/
def isPassComplexityCheckPass (name passwd : List UInt8) (minPwdLength : UInt32) : Bool :=
  if strlen name = 0 then false
  else if strlen passwd < minPwdLength.toNat then false
  else if userStrcmpS sha256 name passwd = 0 ∨ isstrrev passwd name then false
  else if dalCheckComplexityStatus passwd ≠ retOk then false
  else true

/-! ## The check in Lua -/

/-- `USERNAME_PWD_COMPARE_DEFAULT_LEN`. -/
def usernamePwdCompareDefaultLen : ℕ := 4

/-- What the validator reads of the global configuration and of its own record. -/
structure Config where
  passwordComplexityEnable : Bool
  minPasswordLength : UInt32
  maxPasswordLength : UInt32
  userNamePasswordPrefixCompareEnabled : Bool
  userNamePasswordPrefixCompareLength : UInt8

/-- The errors of the validator. -/
inductive Err where
  | stringValueTooLong (property : String) (max : ℕ)
  | passwordComplexityCheckFail
deriving DecidableEq

/-- `LocalPasswordValidator:basic_validate`. -/
def basicValidate (cfg : Config) (username password : List UInt8) : Except Err Unit :=
  if cfg.maxPasswordLength.toNat < password.length then
    .error (.stringValueTooLong "Password" cfg.maxPasswordLength.toNat)
  else if !cfg.passwordComplexityEnable then .ok ()
  else if !isPassComplexityCheckPass sha256 username password cfg.minPasswordLength then
    .error .passwordComplexityCheckFail
  else if !cfg.userNamePasswordPrefixCompareEnabled then .ok ()
  else if username.length < usernamePwdCompareDefaultLen then .ok ()
  else
    let compareLength := cfg.userNamePasswordPrefixCompareLength.toNat
    let compareLength :=
      if username.length < compareLength then username.length else compareLength
    if password.take compareLength = username.take compareLength then
      .error .passwordComplexityCheckFail
    else .ok ()

/-! ## What is asked for -/

/-- How many of the classes of lower case, upper case and digits occur. -/
def classCount (s : List UInt8) : ℕ :=
  (s.any islower).toNat + (s.any isupper).toNat + (s.any isdigit).toNat

/-- A special character and two of the other classes occur. -/
def Mixed (s : List UInt8) : Prop :=
  (∃ c ∈ s, c ∈ pwdPassSpecial) ∧ 2 ≤ classCount s

instance (s : List UInt8) : Decidable (Mixed s) :=
  inferInstanceAs (Decidable (_ ∧ _))

/-- More characters are no less mixed. -/
theorem Mixed.mono {s t : List UInt8} (h : Mixed s) (hsub : s ⊆ t) :
  Mixed t
  := by
  have hany : ∀ k : UInt8 → Bool, (s.any k).toNat ≤ (t.any k).toNat := by
    intro k
    apply Bool.toNat_le_toNat
    intro hk
    obtain ⟨c, hc, hck⟩ := List.any_eq_true.mp hk
    exact List.any_eq_true.mpr ⟨c, hsub hc, hck⟩
  obtain ⟨⟨c, hc, hspecial⟩, hcount⟩ := h
  refine ⟨⟨c, hsub hc, hspecial⟩, hcount.trans ?_⟩
  exact Nat.add_le_add (Nat.add_le_add (hany _) (hany _)) (hany _)

/-- The rule of complex passwords. -/
structure Rule (min : ℕ) (name password : List UInt8) : Prop where
  nonempty : name ≠ []
  long : min ≤ password.length
  ne : password ≠ name
  ne_reverse : password ≠ name.reverse
  mixed : Mixed password

/-- Names of at least four bytes share no prefix of the length to compare. -/
def PrefixFree (cfg : Config) (name password : List UInt8) : Prop :=
  cfg.userNamePasswordPrefixCompareEnabled = true → 4 ≤ name.length →
    ¬ name.take (min cfg.userNamePasswordPrefixCompareLength.toNat name.length) <+: password

/-- The policy admits a password for a user name. -/
structure Admits (cfg : Config) (name password : List UInt8) : Prop where
  short : password.length ≤ cfg.maxPasswordLength.toNat
  rule : cfg.passwordComplexityEnable = true → Rule cfg.minPasswordLength.toNat name password
  prefixFree : cfg.passwordComplexityEnable = true → PrefixFree cfg name password

/-! ## What is checked -/

/-- The rule as C applies it: to the texts, with lengths of 32 bits in the test for a reversed
name. -/
structure ReadRule (min : ℕ) (name password : List UInt8) : Prop where
  nonempty : text name ≠ []
  long : min ≤ strlen password
  ne : text password ≠ text name
  not_turned : ¬ Turned 32 (text password) (text name)
  mixed : Mixed (text password)

/-- The digests are compared as a whole. -/
theorem userStrcmpS_eq_zero_iff (oldStr newStr : List UInt8) :
  userStrcmpS sha256 oldStr newStr = 0 ↔ sha256 (text oldStr) = sha256 (text newStr)
  := by
  have hret : userStrcmpS sha256 oldStr newStr = 0 ↔
      (List.range 32).foldl (fun ret i => ret |||
        (byteAt (sha256 (text oldStr)).toList i ^^^ byteAt (sha256 (text newStr)).toList i)) 0
        = 0 := by
    rw [userStrcmpS]
    split_ifs with h
    · simp [retErr, h]
    · simpa [retOk] using h
  rw [hret, foldl_or_eq_zero]
  constructor
  · rintro ⟨-, h⟩
    apply Vector.toList_inj.mp
    apply List.ext_getElem (by simp)
    intro i hi hi'
    have hi32 : i < 32 := by simpa using hi
    exact (byteAt_eq_iff hi hi').mp (Nat.xor_eq_zero_iff.mp (h i (List.mem_range.mpr hi32)))
  · intro h
    simp [h]

/-- The loop finds the texts turned. -/
theorem isstrrev_iff (newStr oldStr : List UInt8) :
  isstrrev newStr oldStr = true ↔ Turned 32 (text newStr) (text oldStr)
  := by
  rw [isstrrev, Turned, ← List.length_pos_iff, ← List.length_pos_iff]
  change (if strlen newStr = 0 ∨ strlen oldStr = 0 then false else _) = true
    ↔ 0 < strlen newStr ∧ 0 < strlen oldStr ∧ _
  split_ifs with hzero
  · simp only [false_iff]
    omega
  · have hlen : (strlen newStr % 2 ^ 32 ^^^ strlen oldStr) % 2 ^ 32 = 0
        ↔ strlen newStr % 2 ^ 32 = strlen oldStr % 2 ^ 32 := by
      rw [Nat.xor_mod_two_pow, Nat.mod_mod, Nat.xor_eq_zero_iff]
    have hbyte : ∀ i < strlen newStr,
        (byteAt newStr (i % strlen newStr)
          ^^^ byteAt oldStr ((strlen newStr - 1 - i) % strlen oldStr) = 0
        ↔ byteAt (text newStr) i
          = byteAt (text oldStr) ((strlen newStr - 1 - i) % strlen oldStr)) := by
      intro i hi
      rw [Nat.xor_eq_zero_iff, Nat.mod_eq_of_lt hi, byteAt_text hi,
        byteAt_text (Nat.mod_lt _ (by omega))]
    rw [decide_eq_true_iff, foldl_or_eq_zero, hlen]
    simp only [List.mem_range]
    rw [forall₂_congr hbyte]
    simp only [show 0 < strlen newStr by omega, show 0 < strlen oldStr by omega, true_and]
    rfl

/-- A flag that is not set yet takes the result of a test. -/
theorem ite_not_eq_or (flag test : Bool) :
  (if !flag then test else flag) = (flag || test)
  := by cases flag <;> rfl

/-- The loop remembers the classes of all bytes of the text. -/
theorem Seen.scan_eq (f : Seen) (pw : List UInt8) :
  f.scan pw =
    { isconlows := f.isconlows || (text pw).any islower
      isconsups := f.isconsups || (text pw).any isupper
      iscondigs := f.iscondigs || (text pw).any isdigit
      isconspcs := f.isconspcs || (text pw).any isspecial }
  := by
  induction pw generalizing f with
  | nil => simp [Seen.scan, text]
  | cons c pw ih =>
    rw [Seen.scan]
    split_ifs with hc
    · simp [hc]
    · rw [ih, text_cons_of_ne pw hc]
      simp only [Seen.see, ite_not_eq_or, List.any_cons, Bool.or_assoc]

/-- In a text, the special characters are those of the list. -/
theorem any_isspecial_text (pw : List UInt8) :
  (text pw).any isspecial = true ↔ ∃ c ∈ text pw, c ∈ pwdPassSpecial
  := by
  rw [List.any_eq_true]
  apply exists_congr
  intro c
  apply and_congr_right
  intro hc
  have hzero := ne_of_mem_of_not_mem hc (zero_notMem_text pw)
  simp [isspecial, hzero]

theorem dalCheckComplexityStatus_iff (pw : List UInt8) :
  dalCheckComplexityStatus pw = retOk ↔ Mixed (text pw)
  := by
  rw [dalCheckComplexityStatus, Seen.scan_eq, Mixed, ← any_isspecial_text, classCount]
  simp only [Bool.false_or]
  split_ifs with h
  · simp only [retErr, retOk, Int.reduceNeg, reduceCtorEq, false_iff, not_and]
    intro hspecial
    rw [hspecial] at h
    simp only [Bool.toNat_true] at h
    omega
  · push Not at h
    simp only [true_iff]
    exact ⟨by simpa using h.1, h.2⟩

/-- What C makes of a name and a password, if the digests tell their texts apart. -/
theorem isPassComplexityCheckPass_iff {name passwd : List UInt8} (minPwdLength : UInt32)
    (hsha : sha256 (text name) = sha256 (text passwd) → text name = text passwd) :
  isPassComplexityCheckPass sha256 name passwd minPwdLength = true
    ↔ ReadRule minPwdLength.toNat name passwd
  := by
  have hsha' : userStrcmpS sha256 name passwd = 0 ↔ text passwd = text name := by
    rw [userStrcmpS_eq_zero_iff]
    exact ⟨fun h => (hsha h).symm, fun h => by rw [h]⟩
  have hname : strlen name = 0 ↔ text name = [] := List.length_eq_zero_iff
  rw [isPassComplexityCheckPass]
  split_ifs with hempty hshort hlike hmix
  · simpa using fun h : ReadRule _ _ _ => h.nonempty (hname.mp hempty)
  · simpa using fun h : ReadRule _ _ _ => absurd h.long (by omega)
  · rw [hsha', isstrrev_iff] at hlike
    simpa using fun h : ReadRule _ _ _ => hlike.elim h.ne h.not_turned
  · simpa using fun h : ReadRule _ _ _ => hmix ((dalCheckComplexityStatus_iff _).mpr h.mixed)
  · rw [hsha', isstrrev_iff] at hlike
    push Not at hlike hmix
    simp only [true_iff]
    exact {
      nonempty := fun h => hempty (hname.mpr h)
      long := not_lt.mp hshort
      ne := hlike.1
      not_turned := hlike.2
      mixed := (dalCheckComplexityStatus_iff _).mp hmix }

/-- The comparison in Lua is one of prefixes. -/
theorem take_eq_take_iff {n : ℕ} {name password : List UInt8} (h : n ≤ name.length) :
  password.take n = name.take n ↔ name.take n <+: password
  := by
  rw [List.prefix_iff_eq_take, List.length_take, min_eq_left h, eq_comm]

/-- What the validator makes of a name and a password. -/
theorem basicValidate_eq_ok_iff (cfg : Config) {name password : List UInt8}
    (hsha : sha256 (text name) = sha256 (text password) → text name = text password) :
  basicValidate sha256 cfg name password = .ok () ↔
    password.length ≤ cfg.maxPasswordLength.toNat
      ∧ (cfg.passwordComplexityEnable = true →
          ReadRule cfg.minPasswordLength.toNat name password ∧ PrefixFree cfg name password)
  := by
  have hmin : (if name.length < cfg.userNamePasswordPrefixCompareLength.toNat then name.length
      else cfg.userNamePasswordPrefixCompareLength.toNat)
      = min cfg.userNamePasswordPrefixCompareLength.toNat name.length := by
    split_ifs <;> omega
  rw [basicValidate, PrefixFree, ← isPassComplexityCheckPass_iff sha256 _ hsha]
  simp only [hmin, take_eq_take_iff (min_le_right _ _), usernamePwdCompareDefaultLen]
  split_ifs with hlong hoff hpass hcompare hname hprefix
  · simp [hlong]
  · simp only [Bool.not_eq_true'] at hoff
    simpa [hoff] using hlong
  all_goals simp only [Bool.not_eq_true', Bool.not_eq_false] at hoff hpass
  · simp [hoff, hpass]
  · simp only [Bool.not_eq_true'] at hcompare
    simpa [hoff, hpass, hcompare] using hlong
  · simpa [hoff, hpass, hname] using hlong
  · simp only [Bool.not_eq_true', Bool.not_eq_false] at hcompare
    simp [hoff, hpass, hcompare, not_lt.mp hname, hprefix]
  · simpa [hoff, hpass, hprefix] using hlong

/-! ## Where the two agree -/

/-- A rule that is met as C applies it is met, but for the name backwards: a zero byte may hide
that the password is. -/
theorem ReadRule.rule {min : ℕ} {name password : List UInt8} (h : ReadRule min name password)
    (hne : password ≠ name.reverse) :
  Rule min name password
  := by
  exact {
    nonempty := by
      rintro rfl
      exact h.nonempty rfl
    long := h.long.trans (strlen_le_length password)
    ne := by
      rintro rfl
      exact h.ne rfl
    ne_reverse := hne
    mixed := h.mixed.mono fun c hc => mem_of_mem_text hc }

/-- The validator misjudges a password: everything but the rule admits it, and either the rule
is met by the whole byte strings and not as C applies it, or the password is the name backwards
and C does not see that. -/
structure Misjudged (cfg : Config) (name password : List UInt8) : Prop where
  enabled : cfg.passwordComplexityEnable = true
  short : password.length ≤ cfg.maxPasswordLength.toNat
  prefixFree : PrefixFree cfg name password
  differ : Rule cfg.minPasswordLength.toNat name password
      ∧ ¬ ReadRule cfg.minPasswordLength.toNat name password
    ∨ password = name.reverse ∧ ReadRule cfg.minPasswordLength.toNat name password

/-- The rule as C applies it is the rule, unless one of the two ways in which they differ. -/
theorem readRule_iff_rule_iff (min : ℕ) (name password : List UInt8) :
  (ReadRule min name password ↔ Rule min name password) ↔
    ¬ (Rule min name password ∧ ¬ ReadRule min name password
      ∨ password = name.reverse ∧ ReadRule min name password)
  := by
  constructor
  · rintro h (⟨hrule, hread⟩ | ⟨heq, hread⟩)
    · exact hread (h.mpr hrule)
    · exact (h.mp hread).ne_reverse heq
  · intro h
    push Not at h
    exact ⟨fun hread => hread.rule fun heq => h.2 heq hread, h.1⟩

end

/-- The validator decides by the policy exactly for the passwords that it does not misjudge. -/
theorem admits_iff (sha256 : List UInt8 → Vector UInt8 32) (cfg : Config)
    (name password : List UInt8)
    (hsha : sha256 (text name) = sha256 (text password) → text name = text password) :
  (basicValidate sha256 cfg name password = .ok () ↔ Admits cfg name password)
    ↔ ¬ Misjudged cfg name password
  := by
  have hcode := basicValidate_eq_ok_iff sha256 cfg hsha
  have hpolicy : Admits cfg name password ↔ password.length ≤ cfg.maxPasswordLength.toNat
      ∧ (cfg.passwordComplexityEnable = true →
        Rule cfg.minPasswordLength.toNat name password ∧ PrefixFree cfg name password) :=
    ⟨fun h => ⟨h.short, fun on => ⟨h.rule on, h.prefixFree on⟩⟩,
      fun h => ⟨h.1, fun on => (h.2 on).1, fun on => (h.2 on).2⟩⟩
  have hmisjudged : Misjudged cfg name password ↔ cfg.passwordComplexityEnable = true
      ∧ password.length ≤ cfg.maxPasswordLength.toNat ∧ PrefixFree cfg name password
      ∧ ¬ (ReadRule cfg.minPasswordLength.toNat name password
        ↔ Rule cfg.minPasswordLength.toNat name password) := by
    rw [readRule_iff_rule_iff, not_not]
    exact ⟨fun h => ⟨h.enabled, h.short, h.prefixFree, h.differ⟩,
      fun h => ⟨h.1, h.2.1, h.2.2.1, h.2.2.2⟩⟩
  rw [hcode, hpolicy, hmisjudged]
  by_cases hon : cfg.passwordComplexityEnable = true
  · by_cases hshort : password.length ≤ cfg.maxPasswordLength.toNat
    · by_cases hprefix : PrefixFree cfg name password
      · simp [hon, hshort, hprefix]
      · simp [hon, hprefix]
    · simp [hshort]
  · simp [hon]

/-! ## A password with a zero byte -/

/-- A digest that tells short texts apart. -/
def paddedDigest (s : List UInt8) : Vector UInt8 32 :=
  Vector.ofFn fun i => s.getD i 0

/-- The configuration of a new device. -/
def defaultConfig : Config where
  passwordComplexityEnable := true
  minPasswordLength := 8
  maxPasswordLength := 20
  userNamePasswordPrefixCompareEnabled := false
  userNamePasswordPrefixCompareLength := 4

/-- A mixed password of eleven bytes; its fourth byte is zero. -/
def zeroBytePassword : List UInt8 :=
  ofString "Ab1" ++ 0 :: ofString "!cdefgh"

theorem admits_iff_zeroBytePassword :
  (basicValidate paddedDigest defaultConfig (ofString "user1") zeroBytePassword = .ok ()
      ↔ Admits defaultConfig (ofString "user1") zeroBytePassword)
    ↔ ¬ Misjudged defaultConfig (ofString "user1") zeroBytePassword
  := admits_iff paddedDigest defaultConfig _ _ (by decide +kernel)

/-- The password is admitted, and refused for the three bytes that are read of it. -/
theorem not_admits_iff_zeroBytePassword :
  ¬ (basicValidate paddedDigest defaultConfig (ofString "user1") zeroBytePassword = .ok ()
    ↔ Admits defaultConfig (ofString "user1") zeroBytePassword)
  := by
  have hrefused : basicValidate paddedDigest defaultConfig (ofString "user1") zeroBytePassword
      = .error .passwordComplexityCheckFail := by
    decide +kernel
  have hadmitted : Admits defaultConfig (ofString "user1") zeroBytePassword := {
    short := by decide +kernel
    rule := fun _ => {
      nonempty := by decide +kernel
      long := by decide +kernel
      ne := by decide +kernel
      ne_reverse := by decide +kernel
      mixed := by decide +kernel }
    prefixFree := by simp [PrefixFree, defaultConfig] }
  intro h
  have haccepted := h.mpr hadmitted
  rw [hrefused] at haccepted
  cases haccepted

end PasswordPolicy

end BmcAccount
