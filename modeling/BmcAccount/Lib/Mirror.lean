import BmcAccount.Lib.Run

/-!
# Mirrors

A mirror keeps copies of objects that are kept elsewhere. It hears what happens to them from news,
which arrive in the order in which they are sent, and it reads an object when it hears that the
object has been added. Now and then it makes a pass: it clears the marks of all copies, reads the
objects under the keys that it knows of, marks what it has read, and drops what has no mark. News
may be sent and arrive in the middle of a pass.

News may be older than what a pass has read, and it is heard of all the same. A copy is nevertheless
that of the object whenever a pass has ended and no news of the object is in flight
(`Simulates.copy_eq`), in every system that does to the objects, the news and the copies what a
mirror does.
-/

namespace BmcAccount

namespace Mirror

variable {K V P : Type}

/-! ## News of one object -/

/-- An object is there, is gone, or has been changed. -/
inductive News (P : Type) where
  | added
  | removed
  | changed (p : P)
deriving DecidableEq

section News

variable (edit : P → V → V)

/-- The copy after the news. An object that is announced is read. -/
def News.hear (original : Option V) (copy : Option V) : News P → Option V
  | .added => original.or copy
  | .removed => none
  | .changed p => copy.map (edit p)

/-- The object once the news is sent. -/
inductive News.Tells : Option V → News P → Option V → Prop where
  | added (a : Option V) (v : V) : News.Tells a .added (some v)
  | removed (a : Option V) : News.Tells a .removed none
  | changed (a : Option V) (p : P) : News.Tells a (.changed p) (a.map (edit p))

/-- The copy after all the news, if nothing else happens. -/
def catchUp (original : Option V) (m : List (News P)) (copy : Option V) : Option V :=
  m.foldl (News.hear edit original) copy

/-- The copy becomes that of the object with the news. -/
def Leads (original : Option V) (m : List (News P)) (copy : Option V) : Prop :=
  catchUp edit original m copy = original

/-- To make a change twice is to make it once, and what it makes equal stays so whatever is changed
besides. -/
structure Lawful : Prop where
  idem : ∀ p v, edit p (edit p v) = edit p v
  congr : ∀ p q {v v'}, edit p v = edit p v' → edit p (edit q v) = edit p (edit q v')

end News

variable {edit : P → V → V} {original original' copy copy' : Option V} {m : List (News P)}
  {n : News P}

theorem leads_cons :
  Leads edit original (n :: m) copy ↔ Leads edit original m (n.hear edit original copy)
  := Iff.rfl

theorem catchUp_concat :
  catchUp edit original (m ++ [n]) copy
    = n.hear edit original (catchUp edit original m copy)
  := by
  unfold catchUp
  rw [List.foldl_append, List.foldl_cons, List.foldl_nil]

/-- What a change makes equal is still made equal by it after the news. -/
theorem Lawful.map_catchUp (h : Lawful edit) {p : P}
    (horiginal : original.map (edit p) = original'.map (edit p))
    (hcopy : copy.map (edit p) = copy'.map (edit p)) :
  (catchUp edit original m copy).map (edit p) = (catchUp edit original' m copy').map (edit p)
  := by
  induction m generalizing copy copy' with
  | nil => exact hcopy
  | cons n m ih =>
    apply ih
    cases n with
    | added =>
      change (original.or copy).map _ = (original'.or copy').map _
      rw [Option.map_or, Option.map_or, horiginal, hcopy]
    | removed => rfl
    | changed q =>
      change (copy.map (edit q)).map _ = (copy'.map (edit q)).map _
      cases copy with
      | none =>
        cases copy' with
        | none => rfl
        | some v' => cases hcopy
      | some v =>
        cases copy' with
        | none => cases hcopy
        | some v' => exact congrArg some (h.congr p q (Option.some.inj hcopy))

/-- Reading leads to the object if the object itself and the copy do. -/
theorem Leads.or (h : Leads edit original m copy) (hself : Leads edit original m original) :
  Leads edit original m (original.or copy)
  := by
  cases original with
  | none => exact h
  | some v => exact hself

/-- What leads to the object leads to what it becomes when news of it is sent, and so does what
differs from it in what is changed. -/
theorem Leads.tell (h : Lawful edit) (hn : News.Tells edit original n original')
    (hcopy : ∀ p, n = .changed p → copy'.map (edit p) = copy.map (edit p))
    (hleads : Leads edit original m copy) :
  Leads edit original' (m ++ [n]) copy'
  := by
  unfold Leads
  rw [catchUp_concat]
  cases hn with
  | added => rfl
  | removed => rfl
  | changed p =>
    have htwice : (original.map (edit p)).map (edit p) = original.map (edit p) := by
      cases original with
      | none => rfl
      | some v => exact congrArg some (h.idem p v)
    exact (h.map_catchUp htwice (hcopy p rfl)).trans (congrArg _ hleads)

theorem Leads.send (h : Lawful edit) (hn : News.Tells edit original n original')
    (hleads : Leads edit original m copy) :
  Leads edit original' (m ++ [n]) copy
  := hleads.tell h hn fun _ _ => rfl

theorem Leads.send_self (h : Lawful edit) (hn : News.Tells edit original n original')
    (hleads : Leads edit original m original) :
  Leads edit original' (m ++ [n]) original'
  := by
  apply hleads.tell h hn
  rintro p rfl
  cases hn
  cases original with
  | none => rfl
  | some v => exact congrArg some (h.idem p v)

/-! ## The copy of one object -/

/-- The copy, with its mark, after news that arrives. A copy that is read is marked. -/
def News.arrive (edit : P → V → V) (reads : Bool) (original : Option V) (c : Option (V × Bool)) :
    News P → Option (V × Bool)
  | .added => if reads = true then (original.map (·, true)).or c else c
  | .removed => none
  | .changed p => c.map fun e => (edit p e.1, e.2)

variable {c : Option (V × Bool)} {come come' : Prop}

/-- What reading makes of a copy. -/
theorem map_or_read (original : Option V) (c : Option (V × Bool)) :
  ((original.map (·, true)).or c).map Prod.fst = original.or (c.map Prod.fst)
  := by
  cases original <;> rfl

/-- What arriving news makes of a copy. -/
theorem map_arrive (original : Option V) (c : Option (V × Bool)) (n : News P) :
  (n.arrive edit true original c).map Prod.fst = n.hear edit original (c.map Prod.fst)
  := by
  cases n with
  | added => exact map_or_read original c
  | removed => rfl
  | changed p => cases c <;> rfl

/-- The object leads to itself, whatever part of the news has arrived. So does a copy that has been
read in this pass, and no copy at all if the pass has come to the key and there is no such copy. -/
structure Sound (edit : P → V → V) (original : Option V) (m : List (News P))
    (c : Option (V × Bool)) (come : Prop) : Prop where
  self : ∀ m', m' <:+ m → Leads edit original m' original
  marked : ∀ v, c = some (v, true) → Leads edit original m (some v)
  missed : come → (∀ v, c ≠ some (v, true)) → Leads edit original m none

theorem Sound.send (h : Sound edit original m c come) (hlaw : Lawful edit)
    (hn : News.Tells edit original n original') :
  Sound edit original' (m ++ [n]) c come
  where
  self m' hm := by
    rcases List.suffix_concat_iff.mp hm with rfl | ⟨m', rfl, hm'⟩
    · rfl
    · exact (h.self m' hm').send_self hlaw hn
  marked v hv := (h.marked v hv).send hlaw hn
  missed hread hc := (h.missed hread hc).send hlaw hn

/-- A copy without a mark does not matter if it is none that it leads from. -/
theorem Sound.arrive (h : Sound edit original (n :: m) c come) :
  Sound edit original m (n.arrive edit true original c) come
  where
  self m' hm := h.self m' (hm.trans (List.suffix_cons ..))
  marked v hv := by
    have hself := h.self m (List.suffix_cons ..)
    cases n with
    | added =>
      cases original with
      | none => exact leads_cons.mp (h.marked v hv)
      | some a =>
        obtain ⟨rfl, -⟩ := Prod.mk.inj (Option.some.inj hv)
        exact hself
    | removed => cases hv
    | changed p =>
      obtain ⟨⟨v', marked⟩, hc, hv'⟩ := Option.map_eq_some_iff.mp hv
      obtain ⟨rfl, rfl⟩ := Prod.mk.inj hv'
      exact leads_cons.mp (h.marked v' hc)
  missed hread hc := by
    cases n with
    | added =>
      cases original with
      | none => exact leads_cons.mp (h.missed hread hc)
      | some a => exact absurd rfl (hc a)
    | removed =>
      by_cases hmarked : ∃ v, c = some (v, true)
      · obtain ⟨v, hv⟩ := hmarked
        exact leads_cons.mp (h.marked v hv)
      · exact leads_cons.mp (h.missed hread (not_exists.mp hmarked))
    | changed p =>
      apply leads_cons.mp (h.missed hread _)
      rintro v rfl
      exact hc _ rfl

/-- A pass begins. -/
theorem Sound.clear (h : Sound edit original m c come) :
  Sound edit original m (c.map fun e => (e.1, false)) False
  where
  self := h.self
  marked v hv := by
    obtain ⟨_, -, hv'⟩ := Option.map_eq_some_iff.mp hv
    cases hv'
  missed hread := hread.elim

/-- The pass reads the object. -/
theorem Sound.read (h : Sound edit original m c come) :
  Sound edit original m ((original.map (·, true)).or c) come'
  where
  self := h.self
  marked v hv := by
    have hself := h.self m (List.suffix_refl m)
    cases original with
    | none => exact h.marked v hv
    | some a =>
      obtain ⟨rfl, -⟩ := Prod.mk.inj (Option.some.inj hv)
      exact hself
  missed _ hc := by
    have hself := h.self m (List.suffix_refl m)
    cases original with
    | none => exact hself
    | some a => exact absurd rfl (hc a)

/-- The pass ends. -/
theorem Sound.clean (h : Sound edit original m c come) :
  Sound edit original m (c.filter fun e => e.2) come
  where
  self := h.self
  marked v hv := h.marked v (Option.filter_eq_some_iff.mp hv).1
  missed hread hc := by
    apply h.missed hread
    rintro v rfl
    exact hc v rfl

/-- What a pass has left leads to the object. -/
theorem Sound.leads_clean (h : Sound edit original m c come) (hcome : come) :
  Leads edit original m ((c.filter fun e => e.2).map Prod.fst)
  := by
  by_cases hmarked : ∃ v, c = some (v, true)
  · obtain ⟨v, rfl⟩ := hmarked
    exact h.marked v rfl
  · have hnone : (c.filter fun e => e.2) = none := by
      rw [Option.filter_eq_none_iff]
      rintro ⟨v, _⟩ rfl rfl
      exact hmarked ⟨v, rfl⟩
    rw [hnone]
    exact h.missed hcome (not_exists.mp hmarked)

/-! ## The mirror -/

/-- The objects, the news that is in flight, the copies with their marks, and the keys that the
pass has still to come to. -/
structure State (K V P : Type) where
  original : K → Option V
  inFlight : List (K × News P)
  copy : K → Option (V × Bool)
  unread : Set K

/-- News is sent, or arrives; a pass begins, reads an object, or ends. Where an object is to be
read, the reading may fail. -/
inductive Event (K V P : Type) where
  | add (k : K) (v : V)
  | remove (k : K)
  | change (k : K) (p : P)
  | deliver (reads : Bool)
  | clear
  | read (k : K) (reads : Bool)
  | clean

/-- No reading fails. -/
def Event.Reads : Event K V P → Prop
  | .deliver reads => reads = true
  | .read _ reads => reads = true
  | _ => True

/-- A pass ends only when it has come to all keys. -/
def State.Allows (s : State K V P) : Event K V P → Prop
  | .clean => s.unread = ∅
  | _ => True

variable [DecidableEq K]

/-- The object is another one, or is none, and news of it is sent. -/
def State.send (s : State K V P) (k : K) (v : Option V) (n : News P) : State K V P :=
  { s with original := Function.update s.original k v, inFlight := s.inFlight ++ [(k, n)] }

/-- The copy of an object. -/
def State.put (s : State K V P) (k : K) (c : Option (V × Bool)) : State K V P :=
  { s with copy := Function.update s.copy k c }

/-- The state after an event, for a mirror that knows of some keys. -/
def State.after (edit : P → V → V) (keys : Set K) (s : State K V P) : Event K V P → State K V P
  | .add k v => s.send k (some v) .added
  | .remove k => s.send k none .removed
  | .change k p => s.send k ((s.original k).map (edit p)) (.changed p)
  | .deliver reads =>
    match s.inFlight with
    | [] => s
    | (k, n) :: rest =>
      { s.put k (n.arrive edit reads (s.original k) (s.copy k)) with inFlight := rest }
  | .clear => { s with copy := fun k => (s.copy k).map fun e => (e.1, false), unread := keys }
  | .read k reads =>
    { s.put k (if reads = true then ((s.original k).map (·, true)).or (s.copy k) else s.copy k) with
      unread := s.unread \ {k} }
  | .clean => { s with copy := fun k => (s.copy k).filter fun e => e.2 }

theorem after_deliver_of_nil {keys : Set K} {s : State K V P} {reads : Bool}
    (h : s.inFlight = []) :
  s.after edit keys (.deliver reads) = s
  := by
  simp only [State.after, h]

theorem after_deliver_of_cons {keys : Set K} {s : State K V P} {reads : Bool} {k : K}
    {rest : List (K × News P)} (h : s.inFlight = (k, n) :: rest) :
  s.after edit keys (.deliver reads)
    = { s.put k (n.arrive edit reads (s.original k) (s.copy k)) with inFlight := rest }
  := by
  simp only [State.after, h]

/-- The news of an object that is in flight. -/
def State.news (s : State K V P) (k : K) : List (News P) :=
  (s.inFlight.filter fun e => e.1 = k).map Prod.snd

/-! ## Runs -/

section Object

variable {k j : K} {s : State K V P} {v : Option V}

theorem news_send_self :
  (s.send k v n).news k = s.news k ++ [n]
  := by
  simp [State.send, State.news]

theorem news_send_of_ne (h : j ≠ k) :
  (s.send j v n).news k = s.news k
  := by
  simp [State.send, State.news, h]

theorem original_send_self :
  (s.send k v n).original k = v
  := Function.update_self ..

theorem original_send_of_ne (h : j ≠ k) :
  (s.send j v n).original k = s.original k
  := Function.update_of_ne h.symm ..

theorem news_cons_self {rest : List (K × News P)} (h : s.inFlight = (k, n) :: rest) :
  s.news k = n :: State.news { s with inFlight := rest } k
  := by
  simp [State.news, h]

theorem news_cons_of_ne {rest : List (K × News P)} (h : s.inFlight = (j, n) :: rest)
    (hj : j ≠ k) :
  s.news k = State.news { s with inFlight := rest } k
  := by
  simp [State.news, h, hj]

/-- What holds of an object in every run. -/
def State.Sound (edit : P → V → V) (k : K) (s : State K V P) : Prop :=
  Mirror.Sound edit (s.original k) (s.news k) (s.copy k) (k ∉ s.unread)

/-- The copy leads to the object. -/
def State.Known (edit : P → V → V) (k : K) (s : State K V P) : Prop :=
  Leads edit (s.original k) (s.news k) ((s.copy k).map Prod.fst)

/-- If no news of the object is in flight, then the copy is that of the object. -/
theorem State.Known.copy_eq (h : s.Known edit k) (hquiet : s.news k = []) :
  (s.copy k).map Prod.fst = s.original k
  := by
  unfold State.Known Leads at h
  rw [hquiet] at h
  exact h

/-- A mirror that has not begun, and of whose objects no news has been sent. -/
theorem sound_start (hquiet : s.inFlight = []) (hcopy : s.copy k = none) (hunread : k ∈ s.unread) :
  s.Sound edit k
  where
  self m hm := by
    rw [State.news, hquiet, List.filter_nil, List.map_nil, List.suffix_nil] at hm
    rw [hm]
    rfl
  marked v hv := by
    rw [hcopy] at hv
    cases hv
  missed hread := absurd hunread hread

theorem State.Sound.send (h : s.Sound edit k) (hlaw : Lawful edit)
    (hn : News.Tells edit (s.original j) n v) :
  (s.send j v n).Sound edit k
  := by
  unfold State.Sound
  by_cases hj : j = k
  · subst hj
    rw [news_send_self, original_send_self]
    exact Mirror.Sound.send h hlaw hn
  · rw [news_send_of_ne hj, original_send_of_ne hj]
    exact h

theorem State.Known.send (h : s.Known edit k) (hlaw : Lawful edit)
    (hn : News.Tells edit (s.original j) n v) :
  (s.send j v n).Known edit k
  := by
  unfold State.Known
  by_cases hj : j = k
  · subst hj
    rw [news_send_self, original_send_self]
    exact Leads.send hlaw hn h
  · rw [news_send_of_ne hj, original_send_of_ne hj]
    exact h

variable {keys : Set K} {e : Event K V P}

/-- An event leaves an object of the mirror sound. -/
theorem State.Sound.after (h : s.Sound edit k) (hlaw : Lawful edit) (hk : k ∈ keys)
    (hreads : e.Reads) :
  (s.after edit keys e).Sound edit k
  := by
  cases e with
  | add j v => exact h.send hlaw (.added _ v)
  | remove j => exact h.send hlaw (.removed _)
  | change j p => exact h.send hlaw (.changed _ p)
  | deliver reads =>
    obtain rfl : reads = true := hreads
    cases hflight : s.inFlight with
    | nil =>
      rw [after_deliver_of_nil hflight]
      exact h
    | cons e rest =>
      obtain ⟨j, n⟩ := e
      rw [after_deliver_of_cons hflight]
      by_cases hj : j = k
      · subst hj
        have hsound : Mirror.Sound edit (s.original j) (s.news j) (s.copy j) (j ∉ s.unread) := h
        rw [news_cons_self hflight] at hsound
        have harrive := hsound.arrive
        rw [← Function.update_self j (n.arrive edit true (s.original j) (s.copy j)) s.copy]
          at harrive
        exact harrive
      · have hsound : Mirror.Sound edit (s.original k) (s.news k) (s.copy k) (k ∉ s.unread) := h
        rw [news_cons_of_ne hflight hj] at hsound
        rw [← Function.update_of_ne (Ne.symm hj)
          (n.arrive edit true (s.original j) (s.copy j)) s.copy] at hsound
        exact hsound
  | clear =>
    have hclear := Mirror.Sound.clear h
    exact ⟨hclear.self, hclear.marked, fun hcome => absurd hk hcome⟩
  | read j reads =>
    obtain rfl : reads = true := hreads
    by_cases hj : j = k
    · subst hj
      have hread : Mirror.Sound edit (s.original j) (s.news j) _ (j ∉ s.unread \ {j}) :=
        Mirror.Sound.read h
      rw [← Function.update_self j (((s.original j).map (·, true)).or (s.copy j)) s.copy] at hread
      exact hread
    · have hsound : Mirror.Sound edit (s.original k) (s.news k) (s.copy k) (k ∉ s.unread \ {j}) :=
        ⟨h.self, h.marked, fun hcome => h.missed fun hk' => hcome ⟨hk', Ne.symm hj⟩⟩
      rw [← Function.update_of_ne (Ne.symm hj)
        (((s.original j).map (·, true)).or (s.copy j)) s.copy] at hsound
      exact hsound
  | clean => exact Mirror.Sound.clean h

/-- The pass that ends leaves a copy that leads to its object. -/
theorem State.Sound.known_clean (hsound : s.Sound edit k) (hallows : s.Allows .clean) :
  (s.after edit keys .clean).Known edit k
  := by
  have hcome : k ∉ s.unread := by
    rw [show s.unread = ∅ from hallows]
    exact Set.notMem_empty k
  exact Mirror.Sound.leads_clean hsound hcome

/-- An event leaves a copy that leads to its object so. -/
theorem State.Known.after (h : s.Known edit k) (hsound : s.Sound edit k) (hlaw : Lawful edit)
    (hk : k ∈ keys) (hreads : e.Reads) (hallows : s.Allows e) :
  (s.after edit keys e).Known edit k
  := by
  cases e with
  | add j v => exact h.send hlaw (.added _ v)
  | remove j => exact h.send hlaw (.removed _)
  | change j p => exact h.send hlaw (.changed _ p)
  | deliver reads =>
    obtain rfl : reads = true := hreads
    cases hflight : s.inFlight with
    | nil =>
      rw [after_deliver_of_nil hflight]
      exact h
    | cons e rest =>
      obtain ⟨j, n⟩ := e
      rw [after_deliver_of_cons hflight]
      unfold State.Known at h ⊢
      by_cases hj : j = k
      · subst hj
        rw [news_cons_self hflight, leads_cons, ← map_arrive] at h
        rw [← Function.update_self j (n.arrive edit true (s.original j) (s.copy j)) s.copy] at h
        exact h
      · rw [news_cons_of_ne hflight hj] at h
        rw [← Function.update_of_ne (Ne.symm hj)
          (n.arrive edit true (s.original j) (s.copy j)) s.copy] at h
        exact h
  | clear =>
    have hsame : ((s.copy k).map fun e => (e.1, false)).map Prod.fst = (s.copy k).map Prod.fst := by
      rw [Option.map_map]
      rfl
    unfold State.Known at h
    rw [← hsame] at h
    exact h
  | read j reads =>
    obtain rfl : reads = true := hreads
    unfold State.Known at h ⊢
    by_cases hj : j = k
    · subst hj
      have hread := h.or (hsound.self _ (List.suffix_refl _))
      rw [← map_or_read,
        ← Function.update_self j (((s.original j).map (·, true)).or (s.copy j)) s.copy] at hread
      exact hread
    · rw [← Function.update_of_ne (Ne.symm hj)
        (((s.original j).map (·, true)).or (s.copy j)) s.copy] at h
      exact h
  | clean => exact hsound.known_clean hallows

end Object

/-! ## Systems with a mirror -/

/-- No pass ends early, and no reading fails. -/
def State.Fair (s : State K V P) (e : Event K V P) : Prop := s.Allows e ∧ e.Reads

/-- Every step of the system, on states of which a mirror is a part, does nothing to the mirror or
one event; where `ok` holds, a fair one. -/
structure Simulates {σ α : Type} (step : σ → α → σ) (ok : σ → α → Prop) (edit : P → V → V)
    (keys : Set K) (view : σ → State K V P) (image : σ → α → Option (Event K V P)) : Prop where
  view_step : ∀ s a, ok s a →
    view (step s a) = (image s a).elim (view s) ((view s).after edit keys)
  fair : ∀ s a, ok s a → ∀ e ∈ image s a, (view s).Fair e

namespace Simulates

variable {σ α : Type} {step : σ → α → σ} {ok : σ → α → Prop} {keys : Set K}
  {view : σ → State K V P} {image : σ → α → Option (Event K V P)} {s : σ} {k : K}

theorem sound_step (h : Simulates step ok edit keys view image) (hlaw : Lawful edit) (hk : k ∈ keys)
    {a : α} (hok : ok s a) (hsound : (view s).Sound edit k) :
  (view (step s a)).Sound edit k
  := by
  rw [h.view_step s a hok]
  cases hi : image s a with
  | none => exact hsound
  | some e => exact hsound.after hlaw hk (h.fair s a hok e hi).2

theorem known_step (h : Simulates step ok edit keys view image) (hlaw : Lawful edit) (hk : k ∈ keys)
    {a : α} (hok : ok s a) (hsound : (view s).Sound edit k) (hknown : (view s).Known edit k) :
  (view (step s a)).Known edit k
  := by
  rw [h.view_step s a hok]
  cases hi : image s a with
  | none => exact hknown
  | some e =>
    obtain ⟨hallows, hreads⟩ := h.fair s a hok e hi
    exact hknown.after hsound hlaw hk hreads hallows

theorem known_run (h : Simulates step ok edit keys view image) (hlaw : Lawful edit) (hk : k ∈ keys)
    {l : List α} (hl : Run.Along step ok s l) (hsound : (view s).Sound edit k)
    (hknown : (view s).Known edit k) :
  (view (l.foldl step s)).Known edit k
  := by
  induction l generalizing s with
  | nil => exact hknown
  | cons a l ih =>
    obtain ⟨hok, hl⟩ := hl
    exact ih hl (h.sound_step hlaw hk hok hsound) (h.known_step hlaw hk hok hsound hknown)

/-- In a run in which a pass ends, every copy leads to its object. -/
theorem known_of_clean (h : Simulates step ok edit keys view image) (hlaw : Lawful edit)
    (hk : k ∈ keys) {l : List α} (hl : Run.Along step ok s l) (hsound : (view s).Sound edit k)
    {a : α} (ha : a ∈ l) (hclean : ∀ s, image s a = some .clean) :
  (view (l.foldl step s)).Known edit k
  := by
  induction l generalizing s with
  | nil => cases ha
  | cons b l ih =>
    obtain ⟨hok, hl⟩ := hl
    have hnext := h.sound_step hlaw hk hok hsound
    rcases List.mem_cons.mp ha with rfl | ha
    · have hallows := (h.fair s a hok .clean (hclean s)).1
      have hpass : ((view s).after edit keys .clean).Known edit k := hsound.known_clean hallows
      have hknown : (view (step s a)).Known edit k := by
        rw [h.view_step s a hok, hclean]
        exact hpass
      exact h.known_run (s := step s a) hlaw hk hl hnext hknown
    · exact ih hl hnext ha

/-- Every copy is then that of its object, unless news of the object is in flight. -/
theorem copy_eq (h : Simulates step ok edit keys view image) (hlaw : Lawful edit) (hk : k ∈ keys)
    {l : List α} (hl : Run.Along step ok s l) (hsound : (view s).Sound edit k) {a : α} (ha : a ∈ l)
    (hclean : ∀ s, image s a = some .clean) (hquiet : (view (l.foldl step s)).news k = []) :
  ((view (l.foldl step s)).copy k).map Prod.fst = (view (l.foldl step s)).original k
  := (h.known_of_clean hlaw hk hl hsound ha hclean).copy_eq hquiet

end Simulates

end Mirror

end BmcAccount
