import BmcAccount.Lib.Inet

/-!
# The texts of IPv6 addresses

The text of an IPv6 address has groups of hexadecimal digits between colons, may end with an IPv4
address, and may have one double colon, which stands for the groups that are missing. `Ipv6Text`
are the texts by their parts, and `inetPton6_eq_some_iff` says that these are what `inetPton6`
accepts, with the bytes of the parts. Between the loop of `inetPton6` and the parts stands `Reads`,
which follows the loop from one separator to the next.
-/

namespace Inet

/-! ## Groups -/

/-- One to four hexadecimal digits. -/
structure IsGroup (g : List Char) : Prop where
  ne_nil : g ≠ []
  length_le : g.length ≤ 4
  isHex : ∀ c ∈ g, (hexValue c).isSome = true

/-- The number that hexadecimal digits denote after `v`. -/
def hexFrom (v : ℕ) (s : List Char) : ℕ :=
  s.foldl (fun v c => 16 * v + (hexValue c).getD 0) v

/-- The two bytes of a group. -/
def groupBytes (g : List Char) : List ℕ :=
  [hexFrom 0 g / 256, hexFrom 0 g % 256]

@[simp]
theorem length_flatMap_groupBytes (gs : List (List Char)) :
  (gs.flatMap groupBytes).length = 2 * gs.length
  := by
  induction gs with
  | nil => rfl
  | cons g gs ih =>
    rw [List.flatMap_cons, List.length_append, ih, List.length_cons]
    simp only [groupBytes, List.length_cons, List.length_nil]
    omega

/-! ## From one separator to the next -/

/-- What the loop reads of a text: groups, a double colon if there has been none, and an IPv4
address at the end. The bytes are those written before and after. -/
inductive Reads : List ℕ → Option ℕ → List Char → List ℕ → Option ℕ → Prop where
  | done (tp : List ℕ) (colonp : Option ℕ) : Reads tp colonp [] tp colonp
  | last {tp : List ℕ} {colonp : Option ℕ} {g : List Char} (hg : IsGroup g)
      (hlen : tp.length + 2 ≤ 16) : Reads tp colonp g (tp ++ groupBytes g) colonp
  | group {tp tp' : List ℕ} {colonp colonp' : Option ℕ} {g s : List Char} (hg : IsGroup g)
      (hs : s ≠ []) (hlen : tp.length + 2 ≤ 16)
      (h : Reads (tp ++ groupBytes g) colonp s tp' colonp') :
      Reads tp colonp (g ++ ':' :: s) tp' colonp'
  | double {tp tp' : List ℕ} {colonp' : Option ℕ} {s : List Char}
      (h : Reads tp (some tp.length) s tp' colonp') : Reads tp none (':' :: s) tp' colonp'
  | dotted {tp : List ℕ} {colonp : Option ℕ} {d : List Char} {a : List ℕ}
      (ha : inetPton4 d = some a) (hlen : tp.length + 4 ≤ 16) :
      Reads tp colonp d (tp ++ a) colonp

/-- Digits are counted and collected. -/
theorem pton6Loop_digits {curtok d s : List Char} {seen val : ℕ} {tp : List ℕ}
    {colonp : Option ℕ} (hd : ∀ c ∈ d, (hexValue c).isSome = true) (hseen : seen + d.length ≤ 4) :
  pton6Loop curtok seen val tp colonp (d ++ s)
    = pton6Loop curtok (seen + d.length) (hexFrom val d) tp colonp s
  := by
  induction d generalizing seen val with
  | nil => rfl
  | cons c d ih =>
    rw [List.forall_mem_cons] at hd
    rw [List.length_cons] at hseen
    obtain ⟨v, hv⟩ := Option.isSome_iff_exists.mp hd.1
    rw [List.cons_append, pton6Loop, hv]
    simp only
    rw [if_neg (by omega), ih hd.2 (by omega), List.length_cons]
    congr 1
    · omega
    · simp [hexFrom, hv]

theorem inetPton4_dot {s : List Char} {a : List ℕ} (h : inetPton4 s = some a) :
  ∃ w r, s = w ++ '.' :: r ∧ w.length ≤ 3 ∧ ∀ c ∈ w, (hexValue c).isSome = true
  := by
  unfold inetPton4 at h
  split at h
  next w x y z hs =>
    have hjoin : ['.'].intercalate [w, x, y, z] = s := hs ▸ List.intercalate_splitOn '.'
    simp only [List.mapM_cons, List.mapM_nil, Option.pure_def, Option.bind_eq_bind,
      Option.bind_eq_some_iff] at h
    obtain ⟨n, hw, -⟩ := h
    obtain ⟨hlen, hdigit⟩ := octet_eq_some hw
    refine ⟨w, ['.'].intercalate [x, y, z], ?_, hlen, ?_⟩
    · rw [← hjoin, List.intercalate_cons_cons, List.append_assoc, List.singleton_append]
    · intro c hc
      simp [hexValue, hdigit c hc]
  next => cases h

/-- The loop from a separator on. -/
theorem Reads.loop {s : List Char} {tp tp' : List ℕ} {colonp colonp' : Option ℕ}
    (h : Reads tp colonp s tp' colonp') :
  pton6Loop s 0 0 tp colonp s = some (tp', colonp')
  := by
  induction h with
  | done tp colonp => rfl
  | @last tp colonp g hg hlen =>
    have hlen4 : 0 + g.length ≤ 4 := by
      have := hg.length_le
      omega
    have hread : pton6Loop g 0 0 tp colonp (g ++ [])
        = pton6Loop g (0 + g.length) (hexFrom 0 g) tp colonp [] :=
      pton6Loop_digits hg.isHex hlen4
    have hne : 0 + g.length ≠ 0 := by
      have := List.length_pos_iff.mpr hg.ne_nil
      omega
    rw [List.append_nil] at hread
    rw [hread, pton6Loop, if_neg hne, if_pos hlen]
    rfl
  | @group tp tp' colonp colonp' g s hg hs hlen h ih =>
    have hne : 0 + g.length ≠ 0 := by
      have := List.length_pos_iff.mpr hg.ne_nil
      omega
    rw [pton6Loop_digits hg.isHex (by have := hg.length_le; omega), pton6Loop,
      show hexValue ':' = none by decide]
    simp only [if_true]
    rw [if_neg hne, if_neg (by simp only [hs, false_or]; omega)]
    exact ih
  | @double tp tp' colonp' s h ih =>
    rw [pton6Loop, show hexValue ':' = none by decide]
    exact ih
  | @dotted tp colonp d a ha hlen =>
    obtain ⟨w, r, rfl, hw, hhex⟩ := inetPton4_dot ha
    rw [pton6Loop_digits hhex (by omega), pton6Loop, show hexValue '.' = none by decide]
    simp only
    rw [if_neg (by decide), if_pos ⟨trivial, hlen⟩, ha]
    rfl

/-- What the loop has read, where the digits `p` of the current group are already behind. -/
theorem reads_of_loop {curtok p src : List Char} {seen val : ℕ} {tp tp' : List ℕ}
    {colonp colonp' : Option ℕ} (hcur : curtok = p ++ src) (hseen : p.length = seen)
    (hle : seen ≤ 4) (hval : hexFrom 0 p = val) (hp : ∀ c ∈ p, (hexValue c).isSome = true)
    (h : pton6Loop curtok seen val tp colonp src = some (tp', colonp')) :
  Reads tp colonp curtok tp' colonp'
  := by
  induction src generalizing curtok p seen val tp colonp with
  | nil =>
    rw [List.append_nil] at hcur
    subst hcur hseen hval
    simp only [pton6Loop] at h
    split_ifs at h with h0 h16
    · obtain ⟨rfl, rfl⟩ : tp = tp' ∧ colonp = colonp' := by simpa using h
      rw [List.length_eq_zero_iff.mp h0]
      exact .done tp colonp
    · obtain ⟨rfl, rfl⟩ : tp ++ groupBytes curtok = tp' ∧ colonp = colonp' := by
        simpa [groupBytes] using h
      exact .last ⟨by simpa using h0, hle, hp⟩ h16
  | cons ch src ih =>
    simp only [pton6Loop] at h
    split at h
    next d hd =>
      split_ifs at h with h4
      apply ih (p := p ++ [ch]) (by simp [hcur]) (by simp [hseen]) (by omega) _ _ h
      · simp only [hexFrom, List.foldl_append, List.foldl_cons, List.foldl_nil, hd,
          Option.getD_some] at hval ⊢
        rw [hval]
      · intro c hc
        rcases List.mem_append.mp hc with hc | hc
        · exact hp c hc
        · rw [List.mem_singleton.mp hc, hd]
          rfl
    next hd =>
      split_ifs at h with hch h0 hsome hfull hdot
      · subst hch hcur
        rw [h0] at hseen
        rw [List.length_eq_zero_iff.mp hseen, List.nil_append]
        rw [Bool.not_eq_true, Option.isSome_eq_false_iff, Option.isNone_iff_eq_none] at hsome
        rw [hsome]
        exact .double (ih (p := []) rfl rfl (Nat.zero_le _) rfl (by simp) h)
      · subst hch hcur hseen hval
        rw [not_or, Nat.not_lt] at hfull
        apply Reads.group ⟨by simpa using h0, hle, hp⟩ hfull.1 hfull.2
        exact ih (p := []) rfl rfl (Nat.zero_le _) rfl (by simp) h
      · simp only [Option.map_eq_some_iff, Prod.mk.injEq] at h
        obtain ⟨a, ha, rfl, rfl⟩ := h
        exact .dotted ha hdot.2

/-! ## The parts of a text -/

/-- The groups after the double colon, or all of them, and the IPv4 address at the end. -/
structure Tail where
  groups : List (List Char)
  dotted : Option (List Char)

namespace Tail

/-- What stands between the colons. -/
def items (t : Tail) : List (List Char) :=
  t.groups ++ t.dotted.toList

def text (t : Tail) : List Char :=
  [':'].intercalate t.items

def bytes (t : Tail) : List ℕ :=
  t.groups.flatMap groupBytes ++ (t.dotted.bind inetPton4).getD []

structure Valid (t : Tail) : Prop where
  isGroup : ∀ g ∈ t.groups, IsGroup g
  isAddr : ∀ d ∈ t.dotted, (inetPton4 d).isSome = true

/-- The number of bytes. -/
def size (t : Tail) : ℕ :=
  2 * t.groups.length + 4 * t.dotted.isSome.toNat

theorem length_bytes {t : Tail} (h : t.Valid) :
  t.bytes.length = t.size
  := by
  rw [bytes, List.length_append, length_flatMap_groupBytes, size]
  cases hd : t.dotted with
  | none => simp
  | some d =>
    obtain ⟨a, ha⟩ := Option.isSome_iff_exists.mp (h.isAddr d hd)
    simp [ha, (inetPton4_eq_some ha).1]

theorem text_cons (g : List Char) {t : Tail} (h : t.items ≠ []) :
  (Tail.mk (g :: t.groups) t.dotted).text = g ++ ':' :: t.text
  := by
  obtain ⟨i, is, hi⟩ := List.exists_cons_of_ne_nil h
  rw [text, text, items, List.cons_append]
  change [':'].intercalate (g :: t.items) = _
  rw [hi, List.intercalate_cons_cons, List.append_assoc, List.singleton_append]

theorem items_ne_nil_of_text {t : Tail} (h : t.text ≠ []) :
  t.items ≠ []
  := by
  intro hnil
  rw [text, hnil] at h
  exact h rfl

theorem text_ne_nil {t : Tail} (h : t.Valid) (hne : t.items ≠ []) :
  t.text ≠ []
  := by
  obtain ⟨groups, dotted⟩ := t
  cases groups with
  | nil =>
    cases dotted with
    | none => exact absurd rfl hne
    | some d =>
      obtain ⟨a, ha⟩ := Option.isSome_iff_exists.mp (h.isAddr d rfl)
      obtain ⟨w, r, rfl, -⟩ := inetPton4_dot ha
      simp [text, items]
  | cons g groups =>
    have hg := (h.isGroup g List.mem_cons_self).ne_nil
    intro hnil
    cases hi : groups ++ dotted.toList with
    | nil => simp [text, items, hi, hg] at hnil
    | cons i is => simp [text, items, hi, hg, List.intercalate_cons_cons] at hnil

/-- A tail is read. -/
theorem reads {t : Tail} (h : t.Valid) {tp : List ℕ} (hlen : tp.length + t.size ≤ 16)
    (colonp : Option ℕ) :
  Reads tp colonp t.text (tp ++ t.bytes) colonp
  := by
  obtain ⟨groups, dotted⟩ := t
  induction groups generalizing tp with
  | nil =>
    cases dotted with
    | none => simpa [text, items, bytes] using Reads.done tp colonp
    | some d =>
      obtain ⟨a, ha⟩ := Option.isSome_iff_exists.mp (h.isAddr d rfl)
      have hread : Reads tp colonp d (tp ++ a) colonp := Reads.dotted ha hlen
      simpa [text, items, bytes, ha] using hread
  | cons g groups ih =>
    have hg := h.isGroup g List.mem_cons_self
    have hrest : (Tail.mk groups dotted).Valid :=
      ⟨fun g' hg' => h.isGroup g' (List.mem_cons_of_mem _ hg'), h.isAddr⟩
    have hsize : (Tail.mk (g :: groups) dotted).size = 2 + (Tail.mk groups dotted).size := by
      simp only [size, List.length_cons]
      omega
    rw [hsize] at hlen
    by_cases hitems : (Tail.mk groups dotted).items = []
    · obtain ⟨rfl, hdotted⟩ := List.append_eq_nil_iff.mp hitems
      rw [Option.toList_eq_nil_iff] at hdotted
      subst hdotted
      have hread : Reads tp colonp g (tp ++ groupBytes g) colonp := Reads.last hg (by omega)
      simpa [text, items, bytes] using hread
    · rw [text_cons g hitems]
      apply Reads.group hg (text_ne_nil hrest hitems) (by omega)
      have hroom : (tp ++ groupBytes g).length + (Tail.mk groups dotted).size ≤ 16 := by
        simp only [groupBytes, List.length_append, List.length_cons, List.length_nil]
        omega
      have hread := ih hrest hroom
      simpa [bytes, List.append_assoc] using hread

end Tail

/-- The text of an IPv6 address: with or without a double colon. -/
inductive Ipv6Text where
  | full (tail : Tail)
  | compressed (front : List (List Char)) (tail : Tail)

namespace Ipv6Text

/-- The part that may have an IPv4 address. -/
def tail : Ipv6Text → Tail
  | .full tail => tail
  | .compressed _ tail => tail

def text : Ipv6Text → List Char
  | .full tail => tail.text
  | .compressed front tail => [':'].intercalate front ++ ':' :: ':' :: tail.text

def bytes : Ipv6Text → List ℕ
  | .full tail => tail.bytes
  | .compressed front tail =>
    front.flatMap groupBytes ++ List.replicate (16 - (2 * front.length + tail.size)) 0 ++ tail.bytes

/-- The parts are groups and addresses, and a double colon stands for one group at least. -/
def Valid : Ipv6Text → Prop
  | .full tail => tail.Valid ∧ tail.size = 16
  | .compressed front tail =>
    (∀ g ∈ front, IsGroup g) ∧ tail.Valid ∧ 2 * front.length + tail.size < 16

end Ipv6Text

/-! ## The texts that are accepted -/

/-- Groups that are each followed by a colon. -/
def frontText (front : List (List Char)) : List Char :=
  front.flatMap (· ++ [':'])

theorem intercalate_append_colon {front : List (List Char)} (h : front ≠ []) :
  [':'].intercalate front ++ [':'] = frontText front
  := by
  induction front with
  | nil => exact absurd rfl h
  | cons g front ih =>
    cases front with
    | nil => simp [frontText]
    | cons g' front =>
      rw [List.intercalate_cons_cons, List.append_assoc, List.append_assoc, ih (by simp)]
      simp [frontText]

/-- Groups in front of a double colon are read. -/
theorem reads_front {front : List (List Char)} (hfront : ∀ g ∈ front, IsGroup g) {tp tp' : List ℕ}
    {colonp colonp' : Option ℕ} {s : List Char} (hs : s ≠ [])
    (hlen : tp.length + 2 * front.length ≤ 16)
    (h : Reads (tp ++ front.flatMap groupBytes) colonp s tp' colonp') :
  Reads tp colonp (frontText front ++ s) tp' colonp'
  := by
  induction front generalizing tp with
  | nil => simpa [frontText] using h
  | cons g front ih =>
    rw [List.forall_mem_cons] at hfront
    rw [List.length_cons] at hlen
    have htext : frontText (g :: front) ++ s = g ++ ':' :: (frontText front ++ s) := by
      simp [frontText]
    rw [htext]
    apply Reads.group hfront.1 (by simp [hs]) (by omega)
    apply ih hfront.2
    · simp only [groupBytes, List.length_append, List.length_cons, List.length_nil]
      omega
    · rwa [List.append_assoc, ← List.flatMap_cons]

/-- The parts of what has been read. -/
theorem Reads.parts {s : List Char} {tp tp' : List ℕ} {colonp colonp' : Option ℕ}
    (h : Reads tp colonp s tp' colonp') :
  (∃ t : Tail, t.Valid ∧ s = t.text ∧ tp' = tp ++ t.bytes ∧ colonp' = colonp) ∨
    colonp = none ∧ ∃ (front : List (List Char)) (t : Tail), (∀ g ∈ front, IsGroup g) ∧ t.Valid ∧
      s = frontText front ++ ':' :: t.text ∧ tp' = tp ++ front.flatMap groupBytes ++ t.bytes ∧
      colonp' = some (tp.length + 2 * front.length)
  := by
  induction h with
  | done tp colonp =>
    exact .inl ⟨⟨[], none⟩, ⟨by simp, by simp⟩, rfl, by simp [Tail.bytes], rfl⟩
  | @last tp colonp g hg hlen =>
    exact .inl ⟨⟨[g], none⟩, ⟨by simpa using hg, by simp⟩, by simp [Tail.text, Tail.items],
      by simp [Tail.bytes], rfl⟩
  | @group tp tp' colonp colonp' g s hg hs hlen h ih =>
    rcases ih with ⟨t, ht, rfl, rfl, rfl⟩ | ⟨hnone, front, t, hfront, ht, rfl, rfl, rfl⟩
    · left
      refine ⟨⟨g :: t.groups, t.dotted⟩, ⟨?_, ht.isAddr⟩, ?_, ?_, rfl⟩
      · exact List.forall_mem_cons.mpr ⟨hg, ht.isGroup⟩
      · rw [Tail.text_cons g (Tail.items_ne_nil_of_text hs)]
      · simp [Tail.bytes]
    · right
      refine ⟨hnone, g :: front, t, List.forall_mem_cons.mpr ⟨hg, hfront⟩, ht, ?_, ?_, ?_⟩
      · simp [frontText]
      · simp
      · simp only [groupBytes, List.length_append, List.length_cons, List.length_nil]
        congr 1
        omega
  | @double tp tp' colonp' s h ih =>
    rcases ih with ⟨t, ht, rfl, rfl, rfl⟩ | ⟨hnone, -⟩
    · exact .inr ⟨rfl, [], t, by simp, ht, by simp [frontText], by simp, by simp⟩
    · cases hnone
  | @dotted tp colonp d a ha hlen =>
    exact .inl ⟨⟨[], some d⟩, ⟨by simp, by simp [ha]⟩, by simp [Tail.text, Tail.items],
      by simp [Tail.bytes, ha], rfl⟩

theorem inetPton6_of_head {s : List Char} (h : s.head? ≠ some ':') :
  inetPton6 s = (pton6Loop s 0 0 [] none s).bind expand
  := by
  unfold inetPton6
  split
  · exact absurd rfl h
  · exact absurd rfl h
  · rfl

theorem IsGroup.head_ne {g : List Char} (hg : IsGroup g) (s : List Char) :
  (g ++ s).head? ≠ some ':'
  := by
  cases g with
  | nil => exact absurd rfl hg.ne_nil
  | cons c g =>
    have hc := hg.isHex c List.mem_cons_self
    intro hhead
    rw [List.cons_append, List.head?_cons, Option.some_inj] at hhead
    subst hhead
    exact absurd hc (by decide)

theorem Tail.head_text_ne {t : Tail} (h : t.Valid) :
  t.text.head? ≠ some ':'
  := by
  obtain ⟨groups, dotted⟩ := t
  cases groups with
  | nil =>
    cases dotted with
    | none => simp [text, items]
    | some d =>
      obtain ⟨a, ha⟩ := Option.isSome_iff_exists.mp (h.isAddr d rfl)
      obtain ⟨w, r, rfl, -, hw⟩ := inetPton4_dot ha
      cases w with
      | nil => simp [text, items]
      | cons c w =>
        have hc := hw c List.mem_cons_self
        simp only [text, items, List.nil_append, Option.toList_some, List.intercalate_singleton,
          List.cons_append, List.head?_cons, ne_eq, Option.some_inj]
        rintro rfl
        exact absurd hc (by decide)
  | cons g groups =>
    have hg := h.isGroup g List.mem_cons_self
    by_cases hitems : (Tail.mk groups dotted).items = []
    · have htext : (Tail.mk (g :: groups) dotted).text = g ++ [] := by
        rw [items] at hitems
        simp [text, items, hitems]
      rw [htext]
      exact hg.head_ne []
    · rw [text_cons g hitems]
      exact hg.head_ne _

theorem head_frontText_ne {g : List Char} (hg : IsGroup g) (front : List (List Char))
    (s : List Char) :
  (frontText (g :: front) ++ s).head? ≠ some ':'
  := by
  simp only [frontText, List.flatMap_cons, List.append_assoc]
  exact hg.head_ne _

namespace Ipv6Text

/-- The double colon is filled up when it stands for something. -/
theorem expand_compressed (front : List (List Char)) {tail : Tail} (h : tail.Valid) :
  expand (front.flatMap groupBytes ++ tail.bytes, some (2 * front.length))
    = if 2 * front.length + tail.size < 16 then some (bytes (.compressed front tail)) else none
  := by
  rw [expand, List.take_left' (length_flatMap_groupBytes front),
    List.drop_left' (length_flatMap_groupBytes front), List.length_append,
    length_flatMap_groupBytes, Tail.length_bytes h]
  rfl

/-- The text of parts is accepted, with their bytes. -/
theorem inetPton6_text {t : Ipv6Text} (h : t.Valid) :
  inetPton6 t.text = some t.bytes
  := by
  cases t with
  | full tail =>
    obtain ⟨hvalid, hsize⟩ := h
    have hread : Reads [] none tail.text ([] ++ tail.bytes) none :=
      tail.reads hvalid (by rw [List.length_nil]; omega) none
    rw [List.nil_append] at hread
    have hlen := Tail.length_bytes hvalid
    rw [text, inetPton6_of_head (Tail.head_text_ne hvalid), hread.loop, Option.bind_some, expand,
      if_pos (hlen.trans hsize)]
    rfl
  | compressed front tail =>
    obtain ⟨hfront, hvalid, hsize⟩ := h
    have hroom : (front.flatMap groupBytes).length + tail.size ≤ 16 := by
      rw [length_flatMap_groupBytes]
      omega
    have hread := tail.reads hvalid hroom (some (front.flatMap groupBytes).length)
    have hall : Reads [] none (frontText front ++ ':' :: tail.text)
        (front.flatMap groupBytes ++ tail.bytes) (some (2 * front.length)) := by
      apply reads_front hfront (by simp) (by rw [List.length_nil]; omega)
      rw [length_flatMap_groupBytes] at hread
      apply Reads.double
      rwa [List.nil_append, length_flatMap_groupBytes]
    have hexpand := expand_compressed front hvalid
    rw [if_pos hsize] at hexpand
    cases hf : front with
    | nil =>
      subst hf
      change (pton6Loop (':' :: tail.text) 0 0 [] none (':' :: tail.text)).bind expand = _
      rw [show ':' :: tail.text = frontText [] ++ ':' :: tail.text from rfl, hall.loop]
      exact hexpand
    | cons g front' =>
      have htext : text (.compressed front tail) = frontText front ++ ':' :: tail.text := by
        rw [← intercalate_append_colon (by simp [hf]), List.append_assoc, List.singleton_append]
        rfl
      have hhead : (frontText front ++ ':' :: tail.text).head? ≠ some ':' := by
        rw [hf]
        exact head_frontText_ne (hfront g (by simp [hf])) front' _
      rw [← hf, htext, inetPton6_of_head hhead, hall.loop]
      exact hexpand

end Ipv6Text

/-- The texts that are accepted are those of valid parts. -/
theorem inetPton6_eq_some_iff {s : List Char} {a : List ℕ} :
  inetPton6 s = some a ↔ ∃ t : Ipv6Text, t.Valid ∧ s = t.text ∧ a = t.bytes
  := by
  constructor
  · intro h
    obtain ⟨curtok, hcur, hloop⟩ : ∃ curtok, (s = ':' :: curtok ∧ curtok.head? = some ':' ∨
          s = curtok ∧ curtok.head? ≠ some ':') ∧
        (pton6Loop curtok 0 0 [] none curtok).bind expand = some a := by
      by_cases hhead : s.head? = some ':'
      · obtain ⟨s', rfl⟩ := List.head?_eq_some_iff.mp hhead
        cases s' with
        | nil => cases h
        | cons c s' =>
          by_cases hc : c = ':'
          · subst hc
            exact ⟨':' :: s', .inl ⟨rfl, rfl⟩, h⟩
          · simp [inetPton6, hc] at h
      · rw [inetPton6_of_head hhead] at h
        exact ⟨s, .inr ⟨rfl, hhead⟩, h⟩
    obtain ⟨⟨tp, colonp⟩, hread, hexpand⟩ := Option.bind_eq_some_iff.mp hloop
    rcases (reads_of_loop (p := []) rfl rfl (Nat.zero_le _) rfl (by simp) hread).parts with
      ⟨t, ht, rfl, rfl, rfl⟩ | ⟨-, front, t, hfront, ht, rfl, rfl, rfl⟩
    · have hs : s = t.text :=
        (hcur.resolve_left fun h => Tail.head_text_ne ht h.2).1
      rw [List.nil_append, expand] at hexpand
      split_ifs at hexpand with hlen
      rw [Option.some_inj] at hexpand
      exact ⟨.full t, ⟨ht, (Tail.length_bytes ht).symm.trans hlen⟩, hs, hexpand.symm⟩
    · rw [List.nil_append, List.length_nil, Nat.zero_add, Ipv6Text.expand_compressed front ht]
        at hexpand
      split_ifs at hexpand with hsize
      rw [Option.some_inj] at hexpand
      refine ⟨.compressed front t, ⟨hfront, ht, hsize⟩, ?_, hexpand.symm⟩
      cases hf : front with
      | nil =>
        subst hf
        exact (hcur.resolve_right fun h => h.2 rfl).1
      | cons g front' =>
        have hhead : (frontText front ++ ':' :: t.text).head? ≠ some ':' := by
          rw [hf]
          exact head_frontText_ne (hfront g (by simp [hf])) front' _
        rw [← hf, (hcur.resolve_left fun h => hhead h.2).1, Ipv6Text.text,
          ← intercalate_append_colon (by simp [hf]), List.append_assoc, List.singleton_append]
  · rintro ⟨t, ht, rfl, rfl⟩
    exact Ipv6Text.inetPton6_text ht

end Inet
