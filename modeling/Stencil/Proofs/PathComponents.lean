import Stencil.Path
import Stencil.Proofs.TextPieces

/-! Components of paths. A join adds to the components of the first path the names of the second, unless the second
path is absolute, and a row of joins begins at the last part that is. -/
namespace Stencil

namespace Path

def separator (p : Path) : String := if p = "" ∨ p.toList.getLast? = some '/' then "" else "/"

variable {p q r : Path}

theorem push_of_absolute (p : Path) (h : isAbsolute q = true) : push p q = q := by simp [push, h]

theorem push_of_relative (p : Path) (h : isAbsolute q = false) : push p q = p ++ separator p ++ q := by
  by_cases hp : p = ""
  · simp [push, separator, hp]
  · by_cases hlast : p.toList.getLast? = some '/' <;> simp [push, separator, h, hp, hlast]

theorem empty_push (q : Path) : push "" q = q := by simp [push]

theorem isAbsolute_eq_false (h : '/' ∉ p.toList) : isAbsolute p = false := by
  have hhead : p.toList.head? ≠ some '/' := fun hhead => h (List.mem_of_mem_head? hhead)
  simpa [isAbsolute] using hhead

theorem isAbsolute_append (h : p ≠ "") (s : String) : isAbsolute (p ++ s) = isAbsolute p := by
  have hne : p.toList ≠ [] := by simpa using h
  simp only [isAbsolute, String.toList_append]
  rw [List.head?_append_of_ne_nil _ hne]

theorem isAbsolute_push_eq (p : Path) (h : isAbsolute q = false) : isAbsolute (push p q) = isAbsolute p := by
  by_cases hp : p = ""
  · rw [hp, empty_push, h]
    rfl
  · rw [push_of_relative p h, String.append_assoc, isAbsolute_append hp]

def names (s : List Char) : List (List Char) := (s.splitOn '/').filter (!isIdle ·)

theorem names_append_slash (s t : List Char) : names (s ++ '/' :: t) = names s ++ names t := by
  rw [names, List.splitOn_append_cons_self, List.filter_append, names, names]

theorem names_of_segment {s : List Char} (hslash : '/' ∉ s) (hidle : isIdle s = false) : names s = [s] := by
  rw [names, List.splitOn_eq_singleton hslash]
  simp [hidle]

theorem names_push (p : Path) (h : isAbsolute q = false) :
    names (push p q).toList = names p.toList ++ names q.toList := by
  rw [push_of_relative p h, String.toList_append, String.toList_append]
  by_cases hp : p = ""
  · rw [hp]
    rfl
  · by_cases hlast : p.toList.getLast? = some '/'
    · obtain ⟨init, hinit⟩ := List.getLast?_eq_some_iff.1 hlast
      have hsep : separator p = "" := by simp [separator, hlast]
      have hnames : names (init ++ ['/']) = names init := by
        rw [names_append_slash]
        exact List.append_nil _
      rw [hsep, hinit, hnames, String.toList_empty, List.append_nil, List.append_assoc, List.singleton_append,
        names_append_slash]
    · have hsep : (separator p).toList = ['/'] := by simp [separator, hp, hlast]
      rw [hsep, List.append_assoc, List.singleton_append, names_append_slash]

theorem components_eq (p : Path) : components p = [anchor p].filter (!·.isEmpty) ++ names p.toList := by
  rw [components]
  congr 1
  change names (p.toList.drop (anchor p).length) = names p.toList
  rw [anchor]
  split
  · next s hs =>
    rw [hs]
    exact (names_append_slash [] s).symm
  · next hs =>
    rw [hs]
    rfl
  · next s hs =>
    rw [hs]
    exact (names_append_slash [] s).trans (names_append_slash ['.'] s).symm
  · rfl

theorem anchor_cases (p : Path) : anchor p = [] ∨ anchor p = ['/'] ∨ anchor p = ['.'] := by
  rw [anchor]
  split <;> simp

theorem filter_anchor (p : Path) : [anchor p].filter (!·.isEmpty) = if anchor p = [] then [] else [anchor p] := by
  cases anchor p <;> simp

theorem isAbsolute_eq_anchor (p : Path) : isAbsolute p = (anchor p == ['/']) := by
  rw [isAbsolute, anchor]
  split
  · next s hs => simp [hs]
  · next hs => simp [hs]
  · next s hs => simp [hs]
  · next hslash _ _ =>
    cases hp : p.toList with
    | nil => rfl
    | cons c cs =>
      have hc : c ≠ '/' := fun h => hslash cs (h ▸ hp)
      simp [hc]

theorem slash_not_mem_names (s : List Char) : ['/'] ∉ names s := by
  intro hmem
  have hsplit := (List.mem_filter.1 hmem).1
  exact (mem_splitOn hsplit).1 List.mem_cons_self

theorem dot_not_mem_names (s : List Char) : ['.'] ∉ names s := by
  intro hmem
  simpa [isIdle] using (List.mem_filter.1 hmem).2

/-- An anchor is not taken for the name of a segment. -/
theorem same_iff : Same p q ↔ anchor p = anchor q ∧ names p.toList = names q.toList := by
  have hfree (p q : Path) (hne : anchor p ≠ []) (h : anchor p :: names p.toList = names q.toList) : False := by
    have hmem : anchor p ∈ names q.toList := h ▸ List.mem_cons_self
    obtain hp | hp | hp := anchor_cases p
    · exact hne hp
    · exact slash_not_mem_names _ (hp ▸ hmem)
    · exact dot_not_mem_names _ (hp ▸ hmem)
  rw [Same, components_eq, components_eq, filter_anchor, filter_anchor]
  by_cases hp : anchor p = []
  · by_cases hq : anchor q = []
    · simp [hp, hq]
    · simp only [hp, hq, if_true, if_false, List.nil_append, List.singleton_append]
      exact ⟨fun h => (hfree q p hq h.symm).elim, fun h => absurd h.1.symm hq⟩
  · by_cases hq : anchor q = []
    · simp only [hp, hq, if_true, if_false, List.nil_append, List.singleton_append]
      exact ⟨fun h => (hfree p q hp h).elim, fun h => h.1.elim⟩
    · simp [hp, hq]

theorem components_of_absolute (h : isAbsolute p = true) : components p = ['/'] :: names p.toList := by
  rw [isAbsolute_eq_anchor, beq_iff_eq] at h
  rw [components_eq, h]
  rfl

theorem anchor_append (hp : p ≠ "") {s : String} (hs : p.toList.getLast? = some '/' ∨ s.toList.head? = some '/') :
    anchor (p ++ s) = anchor p := by
  have hne : p.toList ≠ [] := by simpa using hp
  rw [anchor, anchor, String.toList_append]
  generalize p.toList = cs, s.toList = ds at hne hs
  cases cs with
  | nil => exact absurd rfl hne
  | cons c cs =>
    by_cases hslash : c = '/'
    · subst hslash
      rfl
    by_cases hdot : c = '.'
    · subst hdot
      cases cs with
      | nil =>
        cases ds with
        | nil => rfl
        | cons d ds =>
          obtain rfl : d = '/' := by simpa using hs
          rfl
      | cons c' cs =>
        by_cases hnext : c' = '/'
        · subst hnext
          rfl
        · simp [hnext]
    · simp [hslash, hdot]

theorem anchor_push (hp : p ≠ "") (hq : isAbsolute q = false) : anchor (push p q) = anchor p := by
  rw [push_of_relative p hq, String.append_assoc]
  by_cases hlast : p.toList.getLast? = some '/'
  · exact anchor_append hp (.inl hlast)
  · refine anchor_append hp (.inr ?_)
    simp [separator, hp, hlast]

theorem push_ne_empty (hp : p ≠ "") (hq : isAbsolute q = false) : push p q ≠ "" := by
  rw [push_of_relative p hq, String.append_assoc]
  simp [hp]

/-- The parts from the last absolute one on. -/
def lastRooted : List Path → List Path
  | [] => []
  | p :: ps => if ps.any isAbsolute then lastRooted ps else p :: ps

section Relative

variable {ps : List Path} (h : ps.any isAbsolute = false)

include h

theorem lastRooted_of_relative : lastRooted ps = ps := by
  cases ps with
  | nil => rfl
  | cons p ps =>
    rw [List.any_cons, Bool.or_eq_false_iff] at h
    simp [lastRooted, h.2]

theorem isAbsolute_foldl_push (root : Path) : isAbsolute (ps.foldl push root) = isAbsolute root := by
  induction ps generalizing root with
  | nil => rfl
  | cons p ps ih =>
    rw [List.any_cons, Bool.or_eq_false_iff] at h
    rw [List.foldl_cons, ih h.2, isAbsolute_push_eq root h.1]

theorem names_foldl_push (root : Path) :
    names (ps.foldl push root).toList = names root.toList ++ ps.flatMap (names ·.toList) := by
  induction ps generalizing root with
  | nil => simp
  | cons p ps ih =>
    rw [List.any_cons, Bool.or_eq_false_iff] at h
    rw [List.foldl_cons, ih h.2, names_push root h.1, List.append_assoc, List.flatMap_cons]

theorem anchor_foldl_push {root : Path} (hroot : root ≠ "") : anchor (ps.foldl push root) = anchor root := by
  induction ps generalizing root with
  | nil => rfl
  | cons p ps ih =>
    rw [List.any_cons, Bool.or_eq_false_iff] at h
    rw [List.foldl_cons, ih h.2 (push_ne_empty hroot h.1), anchor_push hroot h.1]

theorem components_foldl_push {root : Path} (hroot : root ≠ "") :
    components (ps.foldl push root) = components root ++ ps.flatMap (names ·.toList) := by
  rw [components_eq, components_eq, anchor_foldl_push h hroot, names_foldl_push h, List.append_assoc]

end Relative

theorem components_foldl_push_of_rooted {ps : List Path} (h : ps.any isAbsolute = true) (root : Path) :
    components (ps.foldl push root) = ['/'] :: (lastRooted ps).flatMap (names ·.toList) := by
  induction ps generalizing root with
  | nil => simp at h
  | cons p ps ih =>
    by_cases hps : ps.any isAbsolute = true
    · rw [List.foldl_cons, ih hps, lastRooted, if_pos hps]
    · have hp : isAbsolute p = true := by simpa [hps] using h
      have hne : p ≠ "" := by
        intro hnil
        simp [hnil, isAbsolute] at hp
      rw [List.foldl_cons, push_of_absolute root hp, components_foldl_push (by simpa using hps) hne,
        components_of_absolute hp, lastRooted, if_neg hps, List.flatMap_cons, List.cons_append]

end Path

end Stencil
