import BmcAccount.Lib.CBuffer

/-!
# Escaping of names in LDAP filters

A user name is looked up in the directory with a filter that contains it, so the characters
that mean something in a filter are written as a backslash and two hexadecimal digits. The
buffer for the escaped name has four times the length of the longest name, and so no name is
cut, and the server reads from the filter what the user has typed.
-/

namespace BmcAccount

namespace Ldap

open CString CBuffer

/-- `LDAP_FILT_MAXSIZ`, the size of the buffers for a filter and for an escaped name. -/
def ldapFiltMaxsiz : ℕ :=
  1024

/-- `LDAP_USER_NAME_MAX_LEN`. -/
def ldapUserNameMaxLen : ℕ :=
  255

/-- `ESCAPE_LEN`. -/
def escapeLen : ℕ :=
  3

/-- The characters of `to_be_replaced`, each with its text in `replace`. -/
def replacements : List (UInt8 × List UInt8) :=
  [(40, ofString "\\28"), (41, ofString "\\29"), (42, ofString "\\2a"), (92, ofString "\\5c")]

/-- The text that replaces a character. -/
def replacement (c : UInt8) : Option (List UInt8) :=
  (replacements.find? fun r => r.1 == c).map Prod.snd

/-- `strncpy_s` of `count` bytes into `destMax` bytes, which fails if the zero byte does not
fit behind them. -/
def strncpyS (destMax : ℕ) (src : List UInt8) (count : ℕ) : Option (List UInt8) :=
  if min count src.length < destMax then some (src.take count) else none

/-- The loop of `escape_string` over what is left of the user name, with the bytes written so
far. The counter has 16 bits, and `str_len - ESCAPE_LEN` the 64 bits of `size_t`. -/
def escapeLoop (strLen : ℕ) : List UInt8 → ℕ → List UInt8 → Option (List UInt8)
  | [], _, out => some out
  | c :: username, count, out =>
    if count < (strLen + 2 ^ 64 - escapeLen) % 2 ^ 64 then
      match replacement c with
      | some r => do
        let text ← strncpyS (strLen - count) r escapeLen
        escapeLoop strLen username ((count + escapeLen) % 2 ^ 16) (out ++ text)
      | none => escapeLoop strLen username ((count + 1) % 2 ^ 16) (out ++ [c])
    else none

/-- `escape_string`: the escaped name before its zero byte, `none` for `LDAP_AUTH_ERROR`. -/
def escapeString (username : List UInt8) (strLen : ℕ) : Option (List UInt8) :=
  escapeLoop strLen (text username) 0 []

/-- The attributes that a user is searched by. -/
inductive Label : Type where
  | cn
  | uid
  | sAMAccountName
  | userPrincipalName
  deriving DecidableEq

/-- The name of an attribute in a filter. -/
def Label.name : Label → List UInt8
  | .cn => ofString "cn"
  | .uid => ofString "uid"
  | .sAMAccountName => ofString "sAMAccountName"
  | .userPrincipalName => ofString "userPrincipalName"

/-- `(&(objectClass=*)(label=value))`. -/
def Label.filterText (label : Label) (value : List UInt8) : List UInt8 :=
  ofString "(&(objectClass=*)(" ++ label.name ++ ofString "=" ++ value ++ ofString "))"

/-- The filter that is printed for an escaped name. -/
def Label.filter (label : Label) (escaped : List UInt8) : List UInt8 :=
  printed ldapFiltMaxsiz (label.filterText escaped)

/-- The filter that `ldap_search_user` builds for a name. -/
def Label.filterOf (label : Label) (username : List UInt8) : Option (List UInt8) :=
  (escapeString username ldapFiltMaxsiz).map label.filter

/-! ## The escaped text -/

/-- The bytes that stand for a character. -/
def escapeChar (c : UInt8) : List UInt8 :=
  (replacement c).getD [c]

/-- The bytes that stand for a text. -/
def escape (s : List UInt8) : List UInt8 :=
  s.flatMap escapeChar

/-- The hexadecimal digits of the characters that are escaped. -/
def hexPairs : List (List UInt8) :=
  [ofString "28", ofString "29", ofString "2a", ofString "5c"]

/-- No parenthesis and no asterisk stands in a text, and every backslash is followed by the
digits of an escaped character. -/
def Escaped (out : List UInt8) : Prop :=
  ∀ c rest, c :: rest <:+ out →
    c ∉ ofString "()*" ∧ (c = 92 → ∃ pair ∈ hexPairs, pair <+: rest)

/-- The character of two hexadecimal digits. -/
def unescapePair (high low : UInt8) : Option UInt8 :=
  (replacements.find? fun r => r.2 == [92, high, low]).map Prod.fst

/-- The text with each escape replaced by its character. -/
def unescape : List UInt8 → List UInt8
  | 92 :: high :: low :: rest =>
    match unescapePair high low with
    | some c => c :: unescape rest
    | none => 92 :: unescape (high :: low :: rest)
  | c :: rest => c :: unescape rest
  | [] => []

theorem replacement_eq_none_iff (c : UInt8) :
  replacement c = none ↔ c ∉ ofString "()*\\"
  := by
  have hchars : ofString "()*\\" = replacements.map Prod.fst := by decide
  rw [replacement, Option.map_eq_none_iff, List.find?_eq_none, hchars, List.mem_map]
  constructor
  · rintro h ⟨r, hr, rfl⟩
    exact h r hr (by simp)
  · intro h r hr hc
    exact h ⟨r, hr, by simpa using hc⟩

theorem mem_of_replacement {c : UInt8} {r : List UInt8} (h : replacement c = some r) :
  (c, r) ∈ replacements
  := by
  obtain ⟨⟨c', r'⟩, hfind, rfl⟩ := Option.map_eq_some_iff.mp h
  obtain rfl : c' = c := by simpa using List.find?_some hfind
  exact List.mem_of_find?_eq_some hfind

/-- Every character that is replaced becomes a backslash and its digits. -/
theorem replacements_pairs :
  ∀ r ∈ replacements, ∃ pair ∈ hexPairs, r.2 = 92 :: pair
  := by decide

theorem length_escapeChar_le (c : UInt8) :
  (escapeChar c).length ≤ escapeLen
  := by
  rcases h : replacement c with _ | r
  · simp [escapeChar, h, escapeLen]
  · have hlen : ∀ r ∈ replacements, r.2.length ≤ escapeLen := by decide
    simpa [escapeChar, h] using hlen _ (mem_of_replacement h)

@[simp]
theorem escape_nil :
  escape [] = []
  := rfl

@[simp]
theorem escape_cons (c : UInt8) (s : List UInt8) :
  escape (c :: s) = escapeChar c ++ escape s
  := List.flatMap_cons

theorem length_escape_le (s : List UInt8) :
  (escape s).length ≤ escapeLen * s.length
  := by
  induction s with
  | nil => simp
  | cons c s ih =>
    have hc := length_escapeChar_le c
    rw [escape_cons, List.length_append, List.length_cons, Nat.mul_succ]
    omega

/-- One step of the loop writes what stands for the character. -/
theorem escapeLoop_cons {strLen : ℕ} (c : UInt8) (s out : List UInt8)
    (hlow : escapeLen ≤ strLen) (hhigh : strLen ≤ 2 ^ 16) :
  escapeLoop strLen (c :: s) out.length out
    = if out.length < strLen - escapeLen
      then escapeLoop strLen s (out ++ escapeChar c).length (out ++ escapeChar c)
      else none
  := by
  have hsize : (strLen + 2 ^ 64 - escapeLen) % 2 ^ 64 = strLen - escapeLen := by
    unfold escapeLen at *
    omega
  rw [escapeLoop, hsize]
  split
  · rename_i hroom
    have hcount : out.length + escapeLen < 2 ^ 16 := by omega
    rcases h : replacement c with _ | r
    · simp only [escapeChar, h, Option.getD_none, List.length_append, List.length_singleton]
      rw [Nat.mod_eq_of_lt (by unfold escapeLen at hcount; omega)]
    · have hr : ∀ r ∈ replacements, r.2.length = escapeLen := by decide
      have hlen : r.length = escapeLen := hr _ (mem_of_replacement h)
      have hcopy : strncpyS (strLen - out.length) r escapeLen = some r := by
        rw [strncpyS, if_pos (by omega), List.take_of_length_le (by omega)]
      simp only [escapeChar, h, Option.getD_some, List.length_append, hlen]
      rw [hcopy, Option.bind_eq_bind, Option.bind_some, Nat.mod_eq_of_lt hcount]
  · rfl

/-- The loop escapes the rest of the name if there is room before its last character. -/
theorem escapeLoop_eq {strLen : ℕ} (s out : List UInt8)
    (hlow : escapeLen ≤ strLen) (hhigh : strLen ≤ 2 ^ 16) :
  escapeLoop strLen s out.length out
    = if s = [] ∨ out.length + (escape s.dropLast).length < strLen - escapeLen
      then some (out ++ escape s)
      else none
  := by
  induction s generalizing out with
  | nil => simp [escapeLoop]
  | cons c s ih =>
    rw [escapeLoop_cons c s out hlow hhigh, ih]
    rcases s with _ | ⟨d, s⟩
    · simp
    · rw [List.dropLast_cons_cons, escape_cons, escape_cons, List.length_append, List.length_append]
      by_cases hroom : out.length < strLen - escapeLen
      · simp [hroom, Nat.add_assoc]
      · rw [if_neg hroom, if_neg]
        simp
        omega

/-- A name is escaped if there is room for the escape of its last character. -/
theorem escapeString_eq {s : List UInt8} (h : 0 ∉ s) :
  escapeString s ldapFiltMaxsiz
    = if (escape s.dropLast).length < ldapFiltMaxsiz - escapeLen then some (escape s) else none
  := by
  have hloop := @escapeLoop_eq ldapFiltMaxsiz (text s) [] (by decide) (by decide)
  rw [text_of_notMem h] at hloop
  rw [escapeString, text_of_notMem h, ← List.length_nil, hloop]
  rcases s with _ | ⟨c, s⟩
  · simp [ldapFiltMaxsiz, escapeLen]
  · simp

/-- A name of the longest length that is stored is always escaped. -/
theorem escapeString_of_le {s : List UInt8} (h : 0 ∉ s) (hlen : s.length ≤ ldapUserNameMaxLen) :
  escapeString s ldapFiltMaxsiz = some (escape s)
  := by
  rw [escapeString_eq h, if_pos]
  have hle := length_escape_le s.dropLast
  simp only [List.length_dropLast, ldapFiltMaxsiz, escapeLen, ldapUserNameMaxLen] at *
  omega

/-! ## Reading the escaped text -/

theorem Escaped.nil :
  Escaped []
  := by
  intro c rest h
  simp at h

theorem Escaped.cons {c : UInt8} {s : List UInt8} (hc : c ∉ ofString "()*\\") (h : Escaped s) :
  Escaped (c :: s)
  := by
  intro d rest hsuffix
  rcases List.suffix_cons_iff.mp hsuffix with heq | hrest
  · obtain ⟨rfl, rfl⟩ := List.cons.inj heq
    have hmem : ∀ e ∈ ofString "()*", e ∈ ofString "()*\\" := by decide +kernel
    constructor
    · intro hd
      exact hc (hmem d hd)
    · rintro rfl
      exact absurd (by decide) hc
  · exact h d rest hrest

theorem Escaped.pair {pair s : List UInt8} (hpair : pair ∈ hexPairs) (h : Escaped s) :
  Escaped (92 :: pair ++ s)
  := by
  have hdigits : ∀ pair ∈ hexPairs, ∀ c ∈ pair, c ∉ ofString "()*\\" := by decide +kernel
  have hrest : ∀ digits, (∀ c ∈ digits, c ∉ ofString "()*\\") → Escaped (digits ++ s) := by
    intro digits
    induction digits with
    | nil => simpa using h
    | cons c digits ih =>
      intro hall
      rw [List.forall_mem_cons] at hall
      apply Escaped.cons hall.1 (ih hall.2)
  intro d rest hsuffix
  rcases List.suffix_cons_iff.mp hsuffix with heq | hrest'
  · obtain ⟨rfl, rfl⟩ := List.cons.inj heq
    constructor
    · decide
    · intro _
      use pair, hpair
      exact List.prefix_append _ _
  · exact hrest pair (hdigits pair hpair) d rest hrest'

/-- What is written for a name has nothing in it that a filter would read otherwise. -/
theorem escaped_escape (s : List UInt8) :
  Escaped (escape s)
  := by
  induction s with
  | nil => exact Escaped.nil
  | cons c s ih =>
    rw [escape_cons, escapeChar]
    rcases h : replacement c with _ | r
    · exact Escaped.cons ((replacement_eq_none_iff c).mp h) ih
    · obtain ⟨pair, hpair, rfl⟩ := replacements_pairs _ (mem_of_replacement h)
      exact Escaped.pair hpair ih

theorem unescape_escapeChar (c : UInt8) (s : List UInt8) :
  unescape (escapeChar c ++ s) = c :: unescape s
  := by
  rw [escapeChar]
  rcases h : replacement c with _ | r
  · have hc := (replacement_eq_none_iff c).mp h
    have hne : c ≠ 92 := by
      rintro rfl
      exact absurd (by decide) hc
    simp [unescape, hne]
  · have hmem := mem_of_replacement h
    simp only [replacements, List.mem_cons, List.not_mem_nil, or_false, Prod.mk.injEq] at hmem
    rcases hmem with ⟨rfl, rfl⟩ | ⟨rfl, rfl⟩ | ⟨rfl, rfl⟩ | ⟨rfl, rfl⟩ <;> rfl

/-- The server reads the name that was escaped. -/
@[simp]
theorem unescape_escape (s : List UInt8) :
  unescape (escape s) = s
  := by
  induction s with
  | nil => rfl
  | cons c s ih => rw [escape_cons, unescape_escapeChar, ih]

theorem escape_injective :
  Function.Injective escape
  := Function.LeftInverse.injective unescape_escape

/-! ## The filters of names -/

/-- What stands before a name in a filter ends at the first equals sign that follows the
attribute, so the attribute and the escaped name can be read from a filter. -/
theorem filterText_inj {label label' : Label} {v v' : List UInt8}
    (h : label.filterText v = label'.filterText v') :
  label = label' ∧ v = v'
  := by
  simp only [Label.filterText, List.append_assoc, List.append_cancel_left_eq] at h
  cases label <;> cases label' <;>
    simp_all [Label.name, ofString]

theorem length_filterText_le (label : Label) (v : List UInt8) :
  (label.filterText v).length ≤ 38 + v.length
  := by
  have hname : label.name.length ≤ 17 := by cases label <;> decide
  have hopen : (ofString "(&(objectClass=*)(").length = 18 := by decide
  have heq : (ofString "=").length = 1 := by decide
  have hclose : (ofString "))").length = 2 := by decide
  simp only [Label.filterText, List.length_append]
  omega

/-- The filter for a name is not cut. -/
theorem filter_escape {s : List UInt8} (label : Label) (hlen : s.length ≤ ldapUserNameMaxLen) :
  label.filter (escape s) = label.filterText (escape s)
  := by
  apply printed_of_lt
  have htext := length_filterText_le label (escape s)
  have hle := length_escape_le s
  simp only [ldapFiltMaxsiz, escapeLen, ldapUserNameMaxLen] at *
  omega

theorem filterOf_eq {s : List UInt8} (label : Label) (h : 0 ∉ s)
    (hlen : s.length ≤ ldapUserNameMaxLen) :
  label.filterOf s = some (label.filterText (escape s))
  := by rw [Label.filterOf, escapeString_of_le h hlen, Option.map_some, filter_escape label hlen]

/-- A name is escaped in the buffer without being cut, what is written has no character in it
that a filter reads otherwise, and the name can be read from it, so that the filters of
distinct names are distinct. -/
theorem escapeString_decodes (s : List UInt8) (hzero : 0 ∉ s)
    (hlen : s.length ≤ ldapUserNameMaxLen) :
  ∃ out, escapeString s ldapFiltMaxsiz = some out ∧ out.length < ldapFiltMaxsiz ∧ Escaped out
    ∧ unescape out = s
    ∧ ∀ (label label' : Label) (name : List UInt8), 0 ∉ name → name.length ≤ ldapUserNameMaxLen →
      label'.filterOf name = label.filterOf s → name = s
  := by
  use escape s, escapeString_of_le hzero hlen
  have hle := length_escape_le s
  refine ⟨?_, escaped_escape s, unescape_escape s, ?_⟩
  · simp only [ldapFiltMaxsiz, escapeLen, ldapUserNameMaxLen] at *
    omega
  · intro label label' name hname hnameLen hfilter
    rw [filterOf_eq label hzero hlen, filterOf_eq label' hname hnameLen, Option.some_inj] at hfilter
    exact escape_injective (filterText_inj hfilter).2

/-- The name `a*(b)\` is escaped. -/
theorem escapeString_decodes_special :
  0 ∉ ofString "a*(b)\\" ∧ ∃ out, escapeString (ofString "a*(b)\\") ldapFiltMaxsiz = some out
    ∧ unescape out = ofString "a*(b)\\"
  := by
  have hzero : 0 ∉ ofString "a*(b)\\" := by decide
  obtain ⟨out, hout, -, -, hread, -⟩ := escapeString_decodes _ hzero (by decide)
  exact ⟨hzero, out, hout, hread⟩

end Ldap

end BmcAccount
