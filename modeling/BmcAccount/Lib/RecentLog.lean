import Mathlib

/-!
# Logs that forget their oldest record

A log of a bounded length takes new records at its end; when it is full, it drops the first one.
So it has the last of all the records that have been written (`foldl_push`).

What is written need not be everything that happens. `Covers p h w` says that `w`, what is written
of what happens, `h`, has everything that matters, in order. Then something that matters is still
in the log as long as little has happened since (`Covers.find_rtake`).
-/

namespace RecentLog

variable {α : Type}

/-! ## The log -/

/-- A log of at most `n` records with a new one. -/
def push (n : ℕ) (l : List α) (a : α) : List α :=
  (if n ≤ l.length then l.tail else l) ++ [a]

theorem tail_rtake {n : ℕ} {l : List α} (h : n + 1 ≤ l.length) :
  (l.rtake (n + 1)).tail = l.rtake n
  := by
  unfold List.rtake
  rw [← List.drop_one, List.drop_drop]
  congr 1
  omega

theorem length_rtake (n : ℕ) (l : List α) :
  (l.rtake n).length = min n l.length
  := by
  unfold List.rtake
  rw [List.length_drop]
  omega

/-- The log has the last of the records, also when there is one more. -/
theorem push_rtake {n : ℕ} (hn : 0 < n) (l : List α) (a : α) :
  push n (l.rtake n) a = (l ++ [a]).rtake n
  := by
  obtain ⟨n, rfl⟩ := Nat.exists_eq_succ_of_ne_zero hn.ne'
  unfold push
  rw [length_rtake, Nat.succ_eq_add_one, List.rtake_concat_succ]
  by_cases hfull : n + 1 ≤ l.length
  · rw [min_eq_left hfull, if_pos le_rfl, tail_rtake hfull]
  · have hall (k : ℕ) (hk : l.length ≤ k) : l.rtake k = l := by
      unfold List.rtake
      rw [Nat.sub_eq_zero_of_le hk, List.drop_zero]
    rw [min_eq_right (by omega), if_neg hfull, hall (n + 1) (by omega), hall n (by omega)]

theorem foldl_push {n : ℕ} (hn : 0 < n) (l new : List α) :
  new.foldl (push n) (l.rtake n) = (l ++ new).rtake n
  := by
  induction new generalizing l with
  | nil => rw [List.append_nil, List.foldl_nil]
  | cons a new ih => rw [List.foldl_cons, push_rtake hn, ih, List.append_assoc, List.singleton_append]

/-! ## What is written of what happens -/

variable {p : α → Bool} {h w : List α}

/-- What is written has everything that matters, and perhaps some of the rest. -/
structure Covers (p : α → Bool) (h w : List α) : Prop where
  sublist : w.Sublist h
  filter : w.filter p = h.filter p

theorem covers_nil (p : α → Bool) :
  Covers p [] []
  := ⟨List.Sublist.refl [], rfl⟩

/-- Everything that happens then is written. -/
theorem Covers.append (hw : Covers p h w) (l : List α) :
  Covers p (h ++ l) (w ++ l)
  := ⟨hw.sublist.append_right l, by rw [List.filter_append, List.filter_append, hw.filter]⟩

/-- What does not matter need not be written. -/
theorem Covers.append_of_not (hw : Covers p h w) {l : List α} (hl : ∀ a ∈ l, p a = false) :
  Covers p (h ++ l) w
  where
    sublist := hw.sublist.trans (List.sublist_append_left h l)
    filter := by
      have hnone : l.filter p = [] := by
        rw [List.filter_eq_nil_iff]
        intro a ha
        rw [hl a ha]
        exact Bool.false_ne_true
      rw [List.filter_append, hnone, List.append_nil, hw.filter]

/-- Something that matters is among the last that has been written, if it is among the last that
has happened. -/
theorem Covers.mem_rtake {pre post : List α} {a : α} {n : ℕ} (hw : Covers p (pre ++ a :: post) w)
    (ha : p a = true) (hpost : post.length < n) :
  a ∈ w.rtake n
  := by
  obtain ⟨w₁, w₂, rfl, hw₁, hw₂⟩ := List.sublist_append_iff.mp hw.sublist
  have hfilter := hw.filter
  rw [List.filter_append, List.filter_append] at hfilter
  have hlen₁ := (hw₁.filter p).length_le
  have hlen₂ := (hw₂.filter p).length_le
  have hlen : (w₁.filter p).length + (w₂.filter p).length
      = (pre.filter p).length + ((a :: post).filter p).length := by
    rw [← List.length_append, ← List.length_append, hfilter]
  have hlast : w₂.filter p = (a :: post).filter p := (hw₂.filter p).eq_of_length (by omega)
  have hmem : a ∈ w₂ := by
    have hmem : a ∈ (a :: post).filter p := List.mem_filter.mpr ⟨List.mem_cons_self, ha⟩
    rw [← hlast] at hmem
    exact List.mem_of_mem_filter hmem
  have hshort : w₂.length ≤ n := hw₂.length_le.trans (by simpa using hpost)
  have hzero : w₁.length + w₂.length - n - w₁.length = 0 := by omega
  unfold List.rtake
  rw [List.length_append, List.drop_append, hzero, List.drop_zero]
  exact List.mem_append_right _ hmem

/-- It is found there under its key, if nothing else has the key. -/
theorem Covers.find_rtake {κ : Type} [DecidableEq κ] (key : α → κ) {pre post : List α} {a : α}
    {n : ℕ} (hw : Covers p (pre ++ a :: post) w) (ha : p a = true) (hpost : post.length < n)
    (hkey : ∀ b ∈ pre ++ a :: post, key b = key a → b = a) :
  (w.rtake n).find? (fun b => key b = key a) = some a
  := by
  have hmem := hw.mem_rtake ha hpost
  cases hfind : (w.rtake n).find? fun b => key b = key a with
  | none =>
    have hno := List.find?_eq_none.mp hfind a hmem
    simp at hno
  | some b =>
    have hb := List.mem_of_find?_eq_some hfind
    have hsame : key b = key a := by simpa using List.find?_some hfind
    have hhappened := hw.sublist.subset (List.mem_of_mem_drop hb)
    rw [hkey b hhappened hsame]

end RecentLog
