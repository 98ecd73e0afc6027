import BmcAccount.Ldap.ParseInfo

/-!
# The comparison of distinguished names

A user is in a group of the BMC if the directory lists the group with its name. Names are
compared twice: first without case, and then again with case, where the three bytes behind each
comma are passed over because they are the type of an RDN. A comma in a value is escaped, and
the bytes behind it are passed over too, so that values may differ there; where the passed
bytes reach into the next RDN, its type is compared with case. `compare_exact_iff` says exactly
when this makes a difference.

The two pointers and the counter of the source go through the names together, so one index
stands for them. A name of the directory is shorter than `2 ^ 32` bytes.
-/

namespace BmcAccount

namespace CompareDn

open CString CBuffer

open ParseInfo (comma)

/-- `LDAP_TAG_SIZE`. -/
def ldapTagSize : ℕ :=
  3

/-- The byte at an index of a text or the zero byte behind it, `none` further on. -/
def readAt (s : List UInt8) (i : ℕ) : Option UInt8 :=
  if i ≤ s.length then some (s.getD i 0) else none

/-- The loops of `compare_ldap_sentence_without_tag` from an index at which a value is compared:
`true` for `RET_OK`, and `none` if a byte outside of a text is read. Behind a comma the outer
loop tests whether it goes on, and passes over the next tag. -/
def compareFrom (src dst : List UInt8) (length i : ℕ) : Option Bool :=
  if i ≤ length then
    (readAt src i).bind fun c =>
      if c = 0 then some true
      else
        (readAt dst i).bind fun d =>
          if c ≠ d then some false
          else if c = comma then
            if i + 1 ≤ length then
              (readAt src (i + 1)).bind fun next =>
                if next ≠ 0 then compareFrom src dst length (i + 1 + ldapTagSize) else some true
            else some true
          else compareFrom src dst length (i + 1)
  else some true
  termination_by length + 1 - i

/-- `compare_ldap_sentence_without_tag`, `true` for `RET_OK`. -/
def compareLdapSentenceWithoutTag (srcTag dstTag : List UInt8) : Option Bool :=
  if ¬ SameText srcTag dstTag then some false
  else compareFrom srcTag dstTag srcTag.length ldapTagSize

/-! ## Distinguished names -/

/-- The commas of a value are escaped, from a byte on that is itself escaped or not, and the
value does not end in the middle of an escape. -/
def commasEscaped : Bool → List UInt8 → Bool
  | escaped, [] => !escaped
  | escaped, c :: s => (c ≠ comma || escaped) && commasEscaped (c = 92 && !escaped) s

/-- The types of RDNs. -/
def tags : List (List UInt8) :=
  [ofString "CN", ofString "OU", ofString "DC", ofString "UID"]

/-- An RDN with its type in any case. -/
structure Rdn where
  tag : List UInt8
  value : List UInt8
  tag_mem : ∃ t ∈ tags, SameText tag t
  zero_notMem : 0 ∉ value
  escaped : commasEscaped false value

/-- `tag=value`. -/
def Rdn.text (r : Rdn) : List UInt8 :=
  r.tag ++ [61] ++ r.value

/-- A distinguished name. -/
def dnText (dn : List Rdn) : List UInt8 :=
  [comma].intercalate (dn.map Rdn.text)

/-- Two names are the same if their RDNs have the same types without case and the same
values. -/
def SameDn (dn dn' : List Rdn) : Prop :=
  List.Forall₂ (fun r r' => SameText r.tag r'.tag ∧ r.value = r'.value) dn dn'

/-- A comparison is right if it reports the same names, and reads nothing outside of them. -/
structure Right (result : Option Bool) (dn dn' : List Rdn) : Prop where
  same : result = some true ↔ SameDn dn dn'
  inside : result ≠ none

/-! ## The bytes that are compared -/

/-- Marks the bytes of a text that are compared, when as many as the number at first are
passed over. -/
def comparedMask : ℕ → List UInt8 → List Bool
  | _, [] => []
  | k + 1, _ :: s => false :: comparedMask k s
  | 0, c :: s => true :: comparedMask (if c = comma then ldapTagSize else 0) s

/-- Marks the bytes of the values. -/
def Rdn.valueMask (r : Rdn) : List Bool :=
  List.replicate (r.tag.length + 1) false ++ List.replicate r.value.length true

def dnValueMask (dn : List Rdn) : List Bool :=
  [false].intercalate (dn.map Rdn.valueMask)

/-- A marked byte. -/
def Marked (mask : List Bool) (i : ℕ) : Prop :=
  mask[i]? = some true

/-- The byte at an index is not behind a comma of which the three bytes are passed over. -/
def Compared (dn : List Rdn) (i : ℕ) : Prop :=
  Marked (comparedMask ldapTagSize (dnText dn)) i

/-- The byte at an index belongs to a value. -/
def InValue (dn : List Rdn) (i : ℕ) : Prop :=
  Marked (dnValueMask dn) i

/-- Two names differ at an index. -/
def Differ (dn dn' : List Rdn) (i : ℕ) : Prop :=
  (dnText dn)[i]? ≠ (dnText dn')[i]?

/-- What is passed over in values, and what is compared outside of them, makes no difference. -/
structure Harmless (dn dn' : List Rdn) : Prop where
  passed : ∀ i, InValue dn i → ¬ Compared dn i → Differ dn dn' i →
    ∃ j, Compared dn j ∧ Differ dn dn' j
  outside : ∀ i, Compared dn i → ¬ InValue dn i → Differ dn dn' i →
    ∃ j, InValue dn j ∧ Differ dn dn' j

/-! ## What the loops do -/

/-- The bytes of two texts that are compared are equal, when as many as the number at first are
passed over. -/
def agree : ℕ → List UInt8 → List UInt8 → Bool
  | k + 1, _ :: s, _ :: t => agree k s t
  | 0, c :: s, d :: t => c = d && agree (if c = comma then ldapTagSize else 0) s t
  | _, _, _ => true

theorem agree_nil (k : ℕ) (t : List UInt8) :
  agree k [] t = true
  := by cases k <;> rfl

theorem agree_drop (k : ℕ) (s t : List UInt8) :
  agree k s t = agree 0 (s.drop k) (t.drop k)
  := by
  induction k generalizing s t with
  | zero => rfl
  | succ k ih =>
    cases s with
    | nil => rw [agree_nil, List.drop_nil, agree_nil]
    | cons c s =>
      cases t with
      | nil => simp [agree]
      | cons d t => rw [agree, ih, List.drop_succ_cons, List.drop_succ_cons]

theorem agree_iff {k : ℕ} {s t : List UInt8} (h : s.length = t.length) :
  agree k s t ↔ ∀ i, Marked (comparedMask k s) i → s[i]? = t[i]?
  := by
  induction s generalizing k t with
  | nil =>
    obtain rfl : t = [] := List.length_eq_zero_iff.mp h.symm
    simp [agree_nil]
  | cons c s ih =>
    obtain ⟨d, t, rfl⟩ := List.exists_cons_of_length_eq_add_one h.symm
    have hlen : s.length = t.length := by simpa using h
    rcases k with _ | k
    · rw [agree, Bool.and_eq_true, ih hlen, decide_eq_true_iff, comparedMask]
      constructor
      · rintro ⟨rfl, hrest⟩ (_ | i) hmark
        · rfl
        · exact hrest i hmark
      · intro hall
        constructor
        · simpa using hall 0 rfl
        · intro i hmark
          exact hall (i + 1) hmark
    · rw [agree, ih hlen, comparedMask]
      constructor
      · rintro hrest (_ | i) hmark
        · simp [Marked] at hmark
        · exact hrest i hmark
      · intro hall i hmark
        exact hall (i + 1) hmark

theorem readAt_of_lt {s : List UInt8} {i : ℕ} (h : i < s.length) :
  readAt s i = some s[i]
  := by rw [readAt, if_pos h.le, List.getD_eq_getElem s 0 h]

theorem readAt_length (s : List UInt8) :
  readAt s s.length = some 0
  := by simp [readAt]

/-- The loops read inside of texts of one length, and compare the marked bytes. -/
theorem compareFrom_eq {src dst : List UInt8} (hlen : src.length = dst.length) (hzero : 0 ∉ src)
    (i : ℕ) :
  compareFrom src dst src.length i = some (agree 0 (src.drop i) (dst.drop i))
  := by
  induction hi : src.length + 1 - i using Nat.strong_induction_on generalizing i with
  | _ n ih =>
    subst hi
    have hne : ∀ {j} (hj : j < src.length), src[j] ≠ 0 := fun hj hj' =>
      hzero (hj' ▸ List.getElem_mem hj)
    rw [compareFrom]
    rcases lt_trichotomy i src.length with hlt | heq | hgt
    · have hdst : i < dst.length := by omega
      rw [if_pos hlt.le, readAt_of_lt hlt, readAt_of_lt hdst, Option.bind_some, if_neg (hne hlt),
        Option.bind_some, List.drop_eq_getElem_cons hlt, List.drop_eq_getElem_cons hdst, agree]
      by_cases hc : src[i] = dst[i]
      · rw [if_neg (by simpa using hc), decide_eq_true hc, Bool.true_and]
        by_cases hcomma : src[i] = comma
        · rw [if_pos hcomma, if_pos hcomma, if_pos (Nat.succ_le_of_lt hlt), agree_drop,
            List.drop_drop, List.drop_drop]
          rcases Nat.lt_or_ge (i + 1) src.length with hnext | hend
          · rw [readAt_of_lt hnext, Option.bind_some, if_pos (hne hnext),
              ih _ (by unfold ldapTagSize; omega) _ rfl]
          · obtain hend : i + 1 = src.length := by omega
            rw [hend, readAt_length, Option.bind_some, if_neg (by simp),
              List.drop_of_length_le (by omega), agree_nil]
        · rw [if_neg hcomma, if_neg hcomma, ih _ (by omega) _ rfl]
      · rw [if_pos hc, decide_eq_false hc, Bool.false_and]
    · rw [heq, if_pos le_rfl, readAt_length, Option.bind_some, if_pos rfl, List.drop_length,
        agree_nil]
    · rw [if_neg (by omega), List.drop_of_length_le hgt.le, agree_nil]

/-- The comparison is one without case and one of the marked bytes. -/
theorem compareLdapSentenceWithoutTag_eq {s t : List UInt8} (hzero : 0 ∉ s) :
  compareLdapSentenceWithoutTag s t = some (decide (SameText s t) && agree ldapTagSize s t)
  := by
  rw [compareLdapSentenceWithoutTag]
  by_cases hsame : SameText s t
  · rw [if_neg (by simpa using hsame), compareFrom_eq (SameText.length_eq hsame) hzero,
      ← agree_drop, decide_eq_true hsame, Bool.true_and]
  · rw [if_pos hsame, decide_eq_false hsame, Bool.false_and]

/-! ## Names that differ in case alone -/

/-- Texts that are equal without case are cut at their first equals sign alike. -/
theorem sameText_tag {s s' t t' : List UInt8} (hs : 61 ∉ s) (hs' : 61 ∉ s')
    (h : SameText (s ++ [61] ++ t) (s' ++ [61] ++ t')) :
  SameText s s' ∧ SameText t t'
  := by
  induction s generalizing s' with
  | nil =>
    rcases s' with _ | ⟨c', s'⟩
    · exact ⟨rfl, (List.cons.inj h).2⟩
    · have hc : lower c' = 61 := (List.cons.inj h).1.symm
      rw [lower_eq_iff (by decide)] at hc
      simp [hc] at hs'
  | cons c s ih =>
    rcases s' with _ | ⟨c', s'⟩
    · have hc : lower c = 61 := (List.cons.inj h).1
      rw [lower_eq_iff (by decide)] at hc
      simp [hc] at hs
    · obtain ⟨hc, hrest⟩ := List.cons.inj h
      obtain ⟨htag, htail⟩ := ih (by simp_all) (by simp_all) hrest
      exact ⟨by rw [SameText, List.map_cons, List.map_cons, hc, htag], htail⟩

/-- A text that is empty or begins with a comma. -/
def StartsRdn (s : List UInt8) : Prop :=
  ∀ c ∈ s.head?, c = comma

/-- A value that goes on does not begin where an RDN ends. -/
theorem not_sameText_value {c : UInt8} {v t t' : List UInt8} (hv : commasEscaped false (c :: v))
    (ht : StartsRdn t) :
  ¬ SameText t (c :: v ++ t')
  := by
  intro h
  rcases t with _ | ⟨d, t⟩
  · simp [SameText] at h
  · obtain rfl := ht d rfl
    have hc : lower c = comma := (List.cons.inj h).1.symm
    rw [lower_eq_iff (by decide)] at hc
    simp [commasEscaped, hc] at hv

/-- Texts that are equal without case are cut at the ends of their first values alike. -/
theorem sameText_value {escaped : Bool} {v v' t t' : List UInt8} (hv : commasEscaped escaped v)
    (hv' : commasEscaped escaped v') (ht : StartsRdn t) (ht' : StartsRdn t')
    (h : SameText (v ++ t) (v' ++ t')) :
  SameText v v' ∧ SameText t t'
  := by
  induction v generalizing escaped v' with
  | nil =>
    obtain rfl : escaped = false := by simpa [commasEscaped] using hv
    rcases v' with _ | ⟨c', v'⟩
    · exact ⟨rfl, h⟩
    · exact absurd h (not_sameText_value hv' ht)
  | cons c v ih =>
    rcases v' with _ | ⟨c', v'⟩
    · obtain rfl : escaped = false := by simpa [commasEscaped] using hv'
      exact absurd h.symm (not_sameText_value hv ht')
    · obtain ⟨hc, hrest⟩ := List.cons.inj h
      have hback : c = 92 ↔ c' = 92 := by
        rw [← lower_eq_iff (c := c) (by decide), ← lower_eq_iff (c := c') (by decide), hc]
      rw [commasEscaped, Bool.and_eq_true] at hv hv'
      simp only [← hback] at hv'
      obtain ⟨hvalue, htail⟩ := ih hv.2 hv'.2 hrest
      exact ⟨by rw [SameText, List.map_cons, List.map_cons, hc, hvalue], htail⟩

/-! ## Equality at the marked bytes -/

/-- Two texts have the same bytes where a mask says. -/
def EqualOn (mask : List Bool) (s t : List UInt8) : Prop :=
  ∀ i, Marked mask i → s[i]? = t[i]?

theorem equalOn_append {mask mask' : List Bool} {s s' t t' : List UInt8}
    (hmask : mask.length = s.length) (h : s.length = t.length) :
  EqualOn (mask ++ mask') (s ++ s') (t ++ t') ↔ EqualOn mask s t ∧ EqualOn mask' s' t'
  := by
  constructor
  · intro hall
    constructor
    · intro i hi
      have hlt : i < mask.length := (List.getElem?_eq_some_iff.mp hi).1
      have hi' := hall i (by rwa [Marked, List.getElem?_append_left hlt])
      rwa [List.getElem?_append_left (by omega), List.getElem?_append_left (by omega)] at hi'
    · intro i hi
      have hi' := hall (mask.length + i) (by
        rwa [Marked, List.getElem?_append_right (by omega), Nat.add_sub_cancel_left])
      rwa [List.getElem?_append_right (by omega), List.getElem?_append_right (by omega), ← h,
        ← hmask, Nat.add_sub_cancel_left] at hi'
  · rintro ⟨hfirst, hrest⟩ i hi
    rcases Nat.lt_or_ge i mask.length with hlt | hge
    · rw [List.getElem?_append_left (by omega), List.getElem?_append_left (by omega)]
      rw [Marked, List.getElem?_append_left hlt] at hi
      exact hfirst i hi
    · rw [List.getElem?_append_right (by omega), List.getElem?_append_right (by omega), ← h]
      rw [Marked, List.getElem?_append_right hge, hmask] at hi
      exact hrest _ hi

theorem equalOn_replicate_false (n : ℕ) (s t : List UInt8) :
  EqualOn (List.replicate n false) s t
  := by
  intro i hi
  simp [Marked, List.getElem?_replicate] at hi

theorem equalOn_replicate_true {n : ℕ} {s t : List UInt8} (hs : s.length = n)
    (ht : t.length = n) :
  EqualOn (List.replicate n true) s t ↔ s = t
  := by
  constructor
  · intro hall
    apply List.ext_getElem? 
    intro i
    rcases Nat.lt_or_ge i n with hlt | hge
    · exact hall i (by simp [Marked, hlt])
    · rw [List.getElem?_eq_none (by omega), List.getElem?_eq_none (by omega)]
  · rintro rfl i _
    rfl

/-! ## The RDNs of a name -/

theorem Rdn.notMem_tag (r : Rdn) {c : UInt8} (h : ∀ t ∈ tags, lower c ∉ t.map lower) :
  c ∉ r.tag
  := by
  intro hc
  obtain ⟨t, ht, hsame⟩ := r.tag_mem
  apply h t ht
  rw [← hsame]
  exact List.mem_map_of_mem hc

theorem Rdn.zero_notMem_text (r : Rdn) :
  0 ∉ r.text
  := by
  simp [Rdn.text, r.zero_notMem, r.notMem_tag (c := 0) (by decide)]

theorem zero_notMem_dnText (dn : List Rdn) :
  0 ∉ dnText dn
  := by
  intro h
  rcases mem_intercalate h with hcomma | ⟨s, hs, hmem⟩
  · exact absurd hcomma (by decide)
  · obtain ⟨r, -, rfl⟩ := List.mem_map.mp hs
    exact r.zero_notMem_text hmem

theorem Rdn.length_valueMask (r : Rdn) :
  r.valueMask.length = r.text.length
  := by
  simp [Rdn.valueMask, Rdn.text]
  omega

/-- What follows the first RDN. -/
def dnTail (dn : List Rdn) : List UInt8 :=
  if dn = [] then [] else comma :: dnText dn

def maskTail (dn : List Rdn) : List Bool :=
  if dn = [] then [] else false :: dnValueMask dn

theorem dnText_cons (r : Rdn) (dn : List Rdn) :
  dnText (r :: dn) = r.text ++ dnTail dn
  := by cases dn <;> simp [dnText, dnTail, List.intercalate_cons_cons]

theorem dnValueMask_cons (r : Rdn) (dn : List Rdn) :
  dnValueMask (r :: dn) = r.valueMask ++ maskTail dn
  := by cases dn <;> simp [dnValueMask, maskTail, List.intercalate_cons_cons]

theorem startsRdn_dnTail (dn : List Rdn) :
  StartsRdn (dnTail dn)
  := by
  cases dn with
  | nil => simp [StartsRdn, dnTail]
  | cons r dn => simp [StartsRdn, dnTail]

/-- Two names that are equal without case have RDNs that are. -/
theorem sameText_cons {r r' : Rdn} {dn dn' : List Rdn}
    (h : SameText (dnText (r :: dn)) (dnText (r' :: dn'))) :
  SameText r.tag r'.tag ∧ SameText r.value r'.value ∧ SameText (dnTail dn) (dnTail dn')
  := by
  rw [dnText_cons, dnText_cons, Rdn.text, Rdn.text, List.append_assoc,
    List.append_assoc _ _ (dnTail dn')] at h
  obtain ⟨htag, hrest⟩ := sameText_tag (r.notMem_tag (by decide)) (r'.notMem_tag (by decide)) h
  obtain ⟨hvalue, htail⟩ := sameText_value r.escaped r'.escaped (startsRdn_dnTail dn)
    (startsRdn_dnTail dn') hrest
  exact ⟨htag, hvalue, htail⟩

theorem sameText_dnTail {dn dn' : List Rdn} (h : SameText (dnTail dn) (dnTail dn')) :
  (dn = [] ↔ dn' = []) ∧ SameText (dnText dn) (dnText dn')
  := by
  by_cases hdn : dn = []
  · by_cases hdn' : dn' = []
    · rw [hdn, hdn']
      exact ⟨Iff.rfl, rfl⟩
    · simp [dnTail, hdn, hdn', SameText] at h
  · by_cases hdn' : dn' = []
    · simp [dnTail, hdn, hdn', SameText] at h
    · rw [dnTail, dnTail, if_neg hdn, if_neg hdn'] at h
      exact ⟨iff_of_false hdn hdn', (List.cons.inj h).2⟩

/-- The bytes of the values are those of the first value and of the others. -/
theorem equalOn_cons {r r' : Rdn} {dn dn' : List Rdn} (htag : SameText r.tag r'.tag)
    (hvalue : SameText r.value r'.value) (hdn : dn = [] ↔ dn' = []) :
  EqualOn (dnValueMask (r :: dn)) (dnText (r :: dn)) (dnText (r' :: dn'))
    ↔ r.value = r'.value ∧ EqualOn (dnValueMask dn) (dnText dn) (dnText dn')
  := by
  have hlen := SameText.length_eq htag
  have hlen' := SameText.length_eq hvalue
  rw [dnValueMask_cons, dnText_cons, dnText_cons,
    equalOn_append r.length_valueMask (by simp [Rdn.text, hlen, hlen']), Rdn.valueMask, Rdn.text,
    Rdn.text, equalOn_append (by simp) (by simp [hlen]),
    equalOn_replicate_true rfl hlen'.symm]
  apply and_congr
  · exact and_iff_right (equalOn_replicate_false _ _ _)
  · by_cases hnil : dn = []
    · rw [maskTail, if_pos hnil, hnil]
      simp [EqualOn, Marked, dnValueMask]
    · rw [maskTail, dnTail, dnTail, if_neg hnil, if_neg hnil, if_neg (mt hdn.mpr hnil)]
      constructor
      · intro hall i hi
        exact hall (i + 1) hi
      · rintro hall (_ | i) hi
        · rfl
        · exact hall i hi

theorem dnText_ne_nil (r : Rdn) (dn : List Rdn) :
  dnText (r :: dn) ≠ []
  := by simp [dnText_cons, Rdn.text]

/-- Names that are equal without case are the same exactly if their values are. -/
theorem sameDn_iff {dn dn' : List Rdn} (h : SameText (dnText dn) (dnText dn')) :
  SameDn dn dn' ↔ EqualOn (dnValueMask dn) (dnText dn) (dnText dn')
  := by
  induction dn generalizing dn' with
  | nil =>
    rcases dn' with _ | ⟨r', dn'⟩
    · apply iff_of_true List.Forall₂.nil
      intro i _
      rfl
    · exact absurd (List.map_eq_nil_iff.mp h.symm) (dnText_ne_nil r' dn')
  | cons r dn ih =>
    rcases dn' with _ | ⟨r', dn'⟩
    · exact absurd (List.map_eq_nil_iff.mp h) (dnText_ne_nil r dn)
    · obtain ⟨htag, hvalue, htail⟩ := sameText_cons h
      obtain ⟨hdn, hrest⟩ := sameText_dnTail htail
      rw [SameDn, List.forall₂_cons, equalOn_cons htag hvalue hdn, ← ih hrest, and_iff_right htag,
        SameDn]

/-- The same names are equal without case. -/
theorem SameDn.sameText {dn dn' : List Rdn} (h : SameDn dn dn') :
  SameText (dnText dn) (dnText dn')
  := by
  induction h with
  | nil => rfl
  | @cons r r' dn dn' hr hrest ih =>
    have hdn : dn = [] ↔ dn' = [] := by
      cases hrest <;> simp
    have htail : SameText (dnTail dn) (dnTail dn') := by
      by_cases hnil : dn = []
      · rw [dnTail, dnTail, if_pos hnil, if_pos (hdn.mp hnil)]
        rfl
      · rw [dnTail, dnTail, if_neg hnil, if_neg (mt hdn.mpr hnil)]
        exact congrArg (lower comma :: ·) ih
    rw [dnText_cons, dnText_cons, Rdn.text, Rdn.text, hr.2]
    exact SameText.append (SameText.append (SameText.append hr.1 rfl) rfl) htail

/-- The comparison of two names is right exactly if they differ in more than case, or what is
passed over in values and what is compared outside of them makes no difference. -/
theorem compare_exact_iff (dn dn' : List Rdn) :
  Right (compareLdapSentenceWithoutTag (dnText dn) (dnText dn')) dn dn'
    ↔ (SameText (dnText dn) (dnText dn') → Harmless dn dn')
  := by
  rw [compareLdapSentenceWithoutTag_eq (zero_notMem_dnText dn)]
  by_cases h : SameText (dnText dn) (dnText dn')
  · have hagree := agree_iff (k := ldapTagSize) (SameText.length_eq h)
    have hsame := sameDn_iff h
    constructor
    · rintro ⟨hright, -⟩ -
      rw [decide_eq_true h, Bool.true_and, Option.some_inj, hagree, hsame] at hright
      constructor
      · intro i hvalue _ hdiffer
        by_contra hnone
        push Not at hnone
        have hall := hright.mp fun j hj => not_not.mp (hnone j hj)
        exact hdiffer (hall i hvalue)
      · intro i hcompared _ hdiffer
        by_contra hnone
        push Not at hnone
        have hall := hright.mpr fun j hj => not_not.mp (hnone j hj)
        exact hdiffer (hall i hcompared)
    · intro hharmless
      obtain ⟨hpassed, houtside⟩ := hharmless h
      constructor
      · rw [decide_eq_true h, Bool.true_and, Option.some_inj, hagree, hsame]
        constructor
        · intro hall i hi
          by_contra hdiffer
          by_cases hcompared : Compared dn i
          · exact hdiffer (hall i hcompared)
          · obtain ⟨j, hj, hdiffer'⟩ := hpassed i hi hcompared hdiffer
            exact hdiffer' (hall j hj)
        · intro hall i hi
          by_contra hdiffer
          by_cases hvalue : InValue dn i
          · exact hdiffer (hall i hvalue)
          · obtain ⟨j, hj, hdiffer'⟩ := houtside i hi hvalue hdiffer
            exact hdiffer' (hall j hj)
      · simp
  · apply iff_of_true
    · constructor
      · simp only [decide_eq_false h, Bool.false_and, Option.some_inj, Bool.false_eq_true,
          false_iff]
        intro hsame
        exact h hsame.sameText
      · simp
    · intro hsame
      exact absurd hsame h

/-- `CN=a\,Bc` and `CN=a\,bc`. -/
def upperRdn : Rdn where
  tag := ofString "CN"
  value := ofString "a\\,Bc"
  tag_mem := by decide
  zero_notMem := by decide
  escaped := by decide

def lowerRdn : Rdn where
  tag := ofString "CN"
  value := ofString "a\\,bc"
  tag_mem := by decide
  zero_notMem := by decide
  escaped := by decide

/-- Two values that differ in case behind an escaped comma are taken for the same. -/
theorem not_compare_exact :
  ¬ Right (compareLdapSentenceWithoutTag (dnText [upperRdn]) (dnText [lowerRdn])) [upperRdn]
    [lowerRdn]
  := by
  rintro ⟨hright, -⟩
  rw [compareLdapSentenceWithoutTag_eq (zero_notMem_dnText _)] at hright
  have hsame := hright.mp (by decide)
  obtain ⟨-, hvalue⟩ := (List.forall₂_cons.mp hsame).1
  revert hvalue
  decide

end CompareDn

end BmcAccount
