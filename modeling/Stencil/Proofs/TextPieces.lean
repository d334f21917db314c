import Stencil.Text.Blank
import Mathlib.Data.List.DropRight
import Mathlib.Data.List.Induction

/-! Trimming and splitting: a text is what remains of it with what was taken off, and the pieces between
separators are its longest runs without them. -/
namespace Stencil

namespace Text

variable {α : Type} {p : α → Bool} {s run : List α}

/-- `run` is a longest run in `s` of elements with the property: on each side it ends with `s` or at an element
without it. -/
def MaximalRun (p : α → Bool) (s run : List α) : Prop :=
  ∃ before after, s = before ++ (run ++ after) ∧ (∀ x ∈ run, p x = true) ∧
    (∀ x ∈ before.getLast?, p x = false) ∧ ∀ x ∈ after.head?, p x = false

theorem forall_of_any_eq_false (h : s.any p = false) : ∀ x ∈ s, p x = false :=
  fun x hx => eq_false_of_ne_true (List.any_eq_false.1 h x hx)

theorem MaximalRun.append_cons {x : α} (h : MaximalRun p s run) (hx : p x = false) (first : List α) :
    MaximalRun p (first ++ x :: s) run := by
  obtain ⟨before, after, rfl, hrun, hbefore, hafter⟩ := h
  refine ⟨first ++ x :: before, after, by simp, hrun, ?_, hafter⟩
  cases before with
  | nil => simpa using hx
  | cons y before => simpa using hbefore

theorem maximalRun_of_mem_splitOnP (h : run ∈ s.splitOnP p) : MaximalRun (!p ·) s run := by
  induction hn : s.length using Nat.strong_induction_on generalizing s with
  | _ n ih =>
    -- the first piece, and what follows the separator behind it
    have hsplit := List.takeWhile_append_dropWhile (p := (!p ·)) (l := s)
    have hfirst : ∀ x ∈ s.takeWhile (!p ·), p x = false := fun x hx => by simpa using List.mem_takeWhile_imp hx
    generalize s.takeWhile (!p ·) = first at hsplit hfirst
    cases hrest : s.dropWhile (!p ·) with
    | nil =>
      rw [hrest, List.append_nil] at hsplit
      rw [← hsplit, List.splitOnP_eq_singleton hfirst, List.mem_singleton] at h
      exact ⟨[], [], by simp [h, hsplit], by simpa [h] using hfirst, by simp, by simp⟩
    | cons x rest =>
      have hx : p x = true := by simpa [hrest] using List.head?_dropWhile_not (!p ·) s
      rw [hrest] at hsplit
      rw [← hsplit, List.splitOnP_append_cons _ _ hx, List.splitOnP_eq_singleton hfirst, List.singleton_append,
        List.mem_cons] at h
      rw [← hsplit]
      cases h with
      | inl h => exact ⟨[], x :: rest, by simp [h], by simpa [h] using hfirst, by simp, by simpa using hx⟩
      | inr h =>
        have hlt : rest.length < n := by
          rw [← hn, ← hsplit, List.length_append, List.length_cons]
          omega
        exact (ih _ hlt h rfl).append_cons (by simpa using hx) first

theorem MaximalRun.mem_splitOnP (h : MaximalRun (!p ·) s run) : run ∈ s.splitOnP p := by
  obtain ⟨before, after, rfl, hrun, hbefore, hafter⟩ := h
  have hfree : ∀ x ∈ run, p x = false := by simpa using hrun
  have hright : run ∈ (run ++ after).splitOnP p := by
    cases after with
    | nil => simp [List.splitOnP_eq_singleton hfree]
    | cons x after =>
      have hx : p x = true := by simpa using hafter
      rw [List.splitOnP_append_cons _ _ hx, List.splitOnP_eq_singleton hfree]
      simp
  induction before using List.reverseRecOn with
  | nil => exact hright
  | append_singleton before x _ =>
    have hx : p x = true := by simpa using hbefore
    rw [List.append_assoc, List.singleton_append, List.splitOnP_append_cons _ _ hx]
    exact List.mem_append_right _ hright

theorem mem_splitOnP_iff : run ∈ s.splitOnP p ↔ MaximalRun (!p ·) s run :=
  ⟨maximalRun_of_mem_splitOnP, MaximalRun.mem_splitOnP⟩

/-- A text is divided in one way into a part without an element of a kind, and the rest from the first such
element on. -/
theorem append_inj_of_boundary {a b r t : List α} (ha : ∀ x ∈ a, p x = false) (hb : ∀ x ∈ b, p x = false)
    (hr : ∀ x ∈ r.head?, p x = true) (ht : ∀ x ∈ t.head?, p x = true) (h : a ++ r = b ++ t) : a = b ∧ r = t := by
  induction a generalizing b with
  | nil =>
    cases b with
    | nil => exact ⟨rfl, h⟩
    | cons y b =>
      rw [List.nil_append, List.cons_append] at h
      have hy : p y = true := hr y (by rw [h]; rfl)
      rw [hb y List.mem_cons_self] at hy
      cases hy
  | cons x a ih =>
    rw [List.forall_mem_cons] at ha
    cases b with
    | nil =>
      rw [List.nil_append, List.cons_append] at h
      have hx : p x = true := ht x (by rw [← h]; rfl)
      rw [ha.1] at hx
      cases hx
    | cons y b =>
      rw [List.forall_mem_cons] at hb
      rw [List.cons_append, List.cons_append, List.cons.injEq] at h
      obtain ⟨hab, hrt⟩ := ih ha.2 hb.2 h.2
      exact ⟨by rw [h.1, hab], hrt⟩

theorem intercalate_cons_eq (sep first : List α) (rest : List (List α)) :
    sep.intercalate (first :: rest) = first ++ rest.flatMap (sep ++ ·) := by
  induction rest generalizing first with
  | nil => simp
  | cons next rest ih => rw [List.intercalate_cons_cons, ih, List.flatMap_cons, List.append_assoc, List.append_assoc]

end Text

theorem mem_splitOnP {p : Char → Bool} {s t : List Char} (h : t ∈ s.splitOnP p) :
    (∀ c ∈ t, p c = false) ∧ ∀ c ∈ t, c ∈ s := by
  obtain ⟨before, after, rfl, hrun, -, -⟩ := Text.mem_splitOnP_iff.1 h
  exact ⟨by simpa using hrun, fun c hc => List.mem_append_right before (List.mem_append_left after hc)⟩

theorem mem_splitOn {x : Char} {s t : List Char} (h : t ∈ s.splitOn x) : x ∉ t ∧ ∀ c ∈ t, c ∈ s := by
  rw [List.splitOn_eq_splitOnP] at h
  obtain ⟨hfree, hmem⟩ := mem_splitOnP h
  exact ⟨fun hx => by simpa using hfree x hx, hmem⟩

namespace Text

variable {α : Type}

/-- `kept` is `s` without its longest tail of elements with the property. -/
def StripsTail (p : α → Bool) (s kept : List α) : Prop :=
  ∃ tail, s = kept ++ tail ∧ (∀ x ∈ tail, p x = true) ∧ ∀ x ∈ kept.getLast?, p x = false

theorem stripsTail_dropTail (p : α → Bool) (s : List α) : StripsTail p s (dropTail p s) := by
  induction s using List.reverseRecOn with
  | nil => exact ⟨[], rfl, by simp, by simp [dropTail]⟩
  | append_singleton s a ih =>
    cases ha : p a with
    | true =>
      have hdrop : dropTail p (s ++ [a]) = dropTail p s := List.rdropWhile_concat_pos p s a ha
      obtain ⟨tail, hs, htail, hlast⟩ := ih
      refine ⟨tail ++ [a], ?_, ?_, ?_⟩
      · rw [hdrop, ← List.append_assoc, ← hs]
      · simpa [or_imp, forall_and, ha] using htail
      · rwa [hdrop]
    | false =>
      have hdrop : dropTail p (s ++ [a]) = s ++ [a] := List.rdropWhile_concat_neg p s a (by simp [ha])
      refine ⟨[], ?_, by simp, ?_⟩
      · rw [hdrop, List.append_nil]
      · simpa [hdrop] using ha

theorem dropTail_prefix (p : α → Bool) (s : List α) : dropTail p s <+: s := List.rdropWhile_prefix p s

theorem trimEnd_append_blank {s blanks : List Char} (hb : ∀ c ∈ blanks, isBlank c = true) :
    trimEnd (s ++ blanks) = trimEnd s := by
  have hb' : ∀ c ∈ blanks.reverse, isBlank c = true := by simpa using hb
  rw [trimEnd, dropTail, List.reverse_append, List.dropWhile_append_of_pos hb']
  rfl

theorem exists_trimEnd_append (s : List Char) :
    ∃ blanks, s = trimEnd s ++ blanks ∧ ∀ c ∈ blanks, isBlank c = true := by
  obtain ⟨blanks, hs, hb, -⟩ := stripsTail_dropTail isBlank s
  exact ⟨blanks, hs, hb⟩

theorem exists_append_trimStart (s : List Char) :
    ∃ blanks, s = blanks ++ trimStart s ∧ ∀ c ∈ blanks, isBlank c = true :=
  ⟨s.takeWhile isBlank, List.takeWhile_append_dropWhile.symm, fun _ hc => List.mem_takeWhile_imp hc⟩

theorem exists_trim_append (s : List Char) : ∃ before after, s = before ++ (trim s ++ after) ∧
    (∀ c ∈ before, isBlank c = true) ∧ ∀ c ∈ after, isBlank c = true := by
  obtain ⟨before, hs, hbefore⟩ := exists_append_trimStart s
  obtain ⟨after, ht, hafter⟩ := exists_trimEnd_append (trimStart s)
  exact ⟨before, after, by rwa [trim, ← ht], hbefore, hafter⟩

end Text

end Stencil
