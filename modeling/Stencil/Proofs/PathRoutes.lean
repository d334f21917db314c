import Mathlib.Data.List.Infix
import Stencil.Proofs.PathComponents

/-! Routes of paths: the segments that lead from one place to another. The path above goes a part of the way, and a path
that ends in a letter leads to a name that does. -/
namespace Stencil

theorem intercalate_prefix (sep : List Char) {xs ys : List (List Char)} (h : xs <+: ys) :
    sep.intercalate xs <+: sep.intercalate ys := by
  induction xs generalizing ys with
  | nil => exact List.nil_prefix
  | cons x xs ih =>
    obtain ⟨zs, rfl⟩ := h
    cases xs with
    | nil =>
      cases zs with
      | nil => exact List.prefix_rfl
      | cons z zs =>
        rw [List.singleton_append, List.intercalate_cons_cons, List.append_assoc, List.intercalate_singleton]
        exact List.prefix_append _ _
    | cons x' xs =>
      rw [List.cons_append, List.cons_append, List.intercalate_cons_cons, List.intercalate_cons_cons,
        List.prefix_append_right_inj]
      exact ih (List.prefix_append _ _)

theorem filter_dropTail {α : Type} (p : α → Bool) (s : List α) :
    (Text.dropTail p s).filter (!p ·) = s.filter (!p ·) := by
  obtain ⟨tail, hs, htail, -⟩ := Text.stripsTail_dropTail p s
  have hnil : tail.filter (!p ·) = [] := by simpa using htail
  conv_rhs => rw [hs, List.filter_append, hnil, List.append_nil]

namespace Path

def leads (segment : String) : Bool := segment ≠ "" && segment ≠ "."

def route (p : Path) : List String := (segments p).filter leads

variable {p q : Path}

theorem leads_ofList (s : List Char) : leads (.ofList s) = !isIdle s := by
  rw [Bool.eq_iff_iff]
  simp [leads, isIdle, ← String.toList_inj]

theorem route_eq_names (p : Path) : route p = (names p.toList).map String.ofList := by
  rw [route, segments, names, List.filter_map]
  congr 1
  exact List.filter_congr fun s _ => leads_ofList s

theorem slash_not_mem_segment {s : String} (h : s ∈ segments p) : '/' ∉ s.toList := by
  obtain ⟨cs, hcs, rfl⟩ := List.mem_map.1 h
  simpa using (mem_splitOn hcs).1

theorem intercalate_concat (init : List (List Char)) (last : List Char) :
    ∃ front, ['/'].intercalate (init ++ [last]) = front ++ last ∧ (front = [] ∨ front.getLast? = some '/') := by
  induction init with
  | nil => exact ⟨[], by simp, .inl rfl⟩
  | cons a init ih =>
    obtain ⟨front, hjoin, hfront⟩ := ih
    refine ⟨a ++ ['/'] ++ front, ?_, .inr ?_⟩
    · rw [List.cons_append, List.intercalate_cons_of_ne_nil (by simp), hjoin, List.append_assoc _ front]
    · cases hfront with
      | inl hfront => simp [hfront]
      | inr hfront => simp [List.getLast?_cons, hfront]

theorem exists_segments_concat {c : Char} (hc : p.toList.getLast? = some c) (hslash : c ≠ '/') :
    ∃ init name, segments p = init ++ [name] ∧ name.toList.getLast? = some c := by
  have hne := List.splitOn_ne_nil '/' p.toList
  obtain ⟨init, last, hsplit⟩ := (List.eq_nil_or_concat (p.toList.splitOn '/')).resolve_left hne
  obtain ⟨front, hjoin, hfront⟩ := intercalate_concat init last
  rw [← List.concat_eq_append, ← hsplit, List.intercalate_splitOn] at hjoin
  rw [hjoin] at hc
  refine ⟨init.map String.ofList, .ofList last, by simp [segments, hsplit], ?_⟩
  by_cases hlast : last = []
  · rw [hlast, List.append_nil] at hc
    cases hfront with
    | inl hfront => simp [hfront] at hc
    | inr hfront => exact absurd (Option.some.inj (hfront.symm.trans hc)) (Ne.symm hslash)
  · rw [List.getLast?_append_of_ne_nil _ hlast] at hc
    simpa using hc

theorem exists_route_concat {c : Char} (hc : p.toList.getLast? = some c) (hslash : c ≠ '/') (hdot : c ≠ '.') :
    ∃ way name, route p = way ++ [name] ∧ name.toList.getLast? = some c := by
  obtain ⟨init, name, hsegments, hname⟩ := exists_segments_concat hc hslash
  refine ⟨init.filter leads, name, ?_, hname⟩
  have hleads : leads name = true := by
    have hempty : name ≠ "" := by
      intro h
      simp [h] at hname
    have hidle : name ≠ "." := by
      intro h
      rw [h] at hname
      exact hdot (Option.some.inj hname).symm
    simp [leads, hempty, hidle]
  rw [route, hsegments, List.filter_append, List.filter_singleton, hleads]
  rfl

theorem names_drop_anchor (p : Path) : ((p.toList.drop (anchor p).length).splitOn '/').filter (!isIdle ·) =
    names p.toList := by
  have h := components_eq p
  rwa [components, List.append_cancel_left_eq] at h

theorem anchor_begins (p : Path) : anchor p <+: p.toList := by
  rw [anchor]
  split
  · next s hs => exact ⟨s, hs.symm⟩
  · next hs => exact ⟨[], hs.symm⟩
  · next s hs => exact ⟨'/' :: s, hs.symm⟩
  · exact List.nil_prefix

theorem anchor_of_dot_not_mem (hdot : '.' ∉ p.toList) (habsolute : isAbsolute p = false) : anchor p = [] := by
  have hbegins := anchor_begins p
  rw [isAbsolute_eq_anchor] at habsolute
  obtain ha | ha | ha := anchor_cases p
  · exact ha
  · simp [ha] at habsolute
  · rw [ha] at hbegins
    exact absurd (hbegins.subset List.mem_cons_self) hdot

theorem exists_splitOn_drop_dot (h : anchor p = ['.']) :
    ∃ rest, (p.toList.drop (anchor p).length).splitOn '/' = [] :: rest := by
  rw [h]
  rw [anchor] at h
  split at h
  · cases h
  · next hs => exact ⟨[], by simp [hs]⟩
  · next s hs => exact ⟨s.splitOn '/', by simpa [hs] using List.splitOn_append_cons_self (a := '/') [] s⟩
  · cases h

theorem names_anchor_append {rest : List (List Char)}
    (h : rest <+: (p.toList.drop (anchor p).length).splitOn '/') :
    names (anchor p ++ ['/'].intercalate rest) = rest.filter (!isIdle ·) := by
  by_cases hrest : rest = []
  · rw [hrest]
    obtain ha | ha | ha := anchor_cases p <;> rw [ha] <;> rfl
  · have hnames : names (['/'].intercalate rest) = rest.filter (!isIdle ·) := by
      rw [names, List.splitOn_intercalate '/' (fun s hs => (mem_splitOn (h.subset hs)).1) hrest]
    obtain ha | ha | ha := anchor_cases p
    · rw [ha, List.nil_append, hnames]
    · rw [ha]
      exact (names_append_slash [] _).trans hnames
    · obtain ⟨rest', rfl⟩ : ∃ rest', rest = [] :: rest' := by
        obtain ⟨more, hmore⟩ := exists_splitOn_drop_dot ha
        rw [hmore] at h
        cases rest with
        | nil => exact absurd rfl hrest
        | cons r rest' => exact ⟨rest', by rw [(List.cons_prefix_cons.1 h).1]⟩
      cases rest' with
      | nil =>
        rw [ha]
        rfl
      | cons r rest' =>
        rw [ha, ← hnames, List.intercalate_cons_cons, List.nil_append, List.singleton_append]
        exact (names_append_slash ['.'] _).trans (names_append_slash [] _).symm

theorem isAbsolute_of_prefix (h : q.toList <+: p.toList) (hq : q ≠ "") : isAbsolute q = isAbsolute p := by
  obtain ⟨rest, hrest⟩ := h
  have hne : q.toList ≠ [] := by simpa using hq
  rw [isAbsolute, isAbsolute, ← hrest, List.head?_append_of_ne_nil _ hne]

theorem anchored_prefix {rest : List (List Char)} (h : rest <+: (p.toList.drop (anchor p).length).splitOn '/') :
    anchor p ++ ['/'].intercalate rest <+: p.toList := by
  have hjoin := intercalate_prefix ['/'] h
  rw [List.intercalate_splitOn] at hjoin
  have hp : anchor p ++ p.toList.drop (anchor p).length = p.toList :=
    List.prefix_iff_eq_append.1 (anchor_begins p)
  conv_rhs => rw [← hp]
  exact (List.prefix_append_right_inj _).2 hjoin

theorem trail_cases (p : Path) : trail p = [] ∨ ∃ init last, trail p = init ++ [last] ∧ isIdle last = false := by
  obtain ⟨-, -, -, hlast⟩ := Text.stripsTail_dropTail isIdle ((p.toList.drop (anchor p).length).splitOn '/')
  obtain h | ⟨init, last, h⟩ := List.eq_nil_or_concat (trail p)
  · exact .inl h
  · rw [List.concat_eq_append] at h
    rw [← trail, h, List.getLast?_concat] at hlast
    exact .inr ⟨init, last, h, hlast last rfl⟩

theorem names_trail (p : Path) : names p.toList = (trail p).filter (!isIdle ·) := by
  rw [← names_drop_anchor, trail, filter_dropTail]

theorem getLast?_trail (p : Path) : (trail p).getLast? = (names p.toList).getLast? := by
  rw [names_trail]
  obtain h | ⟨init, last, h, hlast⟩ := trail_cases p
  · rw [h]
    rfl
  · simp [h, hlast]

theorem fileName?_eq_route (p : Path) : fileName? p = (route p).getLast?.filter (· ≠ "..") := by
  have hup (s : List Char) : s ≠ ['.', '.'] ↔ String.ofList s ≠ ".." := by simp [← String.toList_inj]
  simp only [fileName?, getLast?_trail, route_eq_names, List.getLast?_map, Option.filter_map, hup]
  rfl

theorem parent_route (h : parent? p = some q) : isAbsolute q = isAbsolute p ∧ route q = (route p).dropLast := by
  have hroute := route_eq_names p
  rw [names_trail] at hroute
  rw [parent?] at h
  split at h
  · next hempty =>
    rw [List.isEmpty_iff] at hempty
    rw [hempty] at hroute
    split at h
    · next ha =>
      obtain rfl := Option.some.inj h
      rw [hroute, isAbsolute_eq_anchor p, ha]
      exact ⟨rfl, rfl⟩
    · cases h
  · next hne =>
    obtain rfl := Option.some.inj h
    obtain ⟨init, last, htrail, hlast⟩ := (trail_cases p).resolve_left (by simpa using hne)
    have hrest : Text.dropTail isIdle (trail p).dropLast <+: (p.toList.drop (anchor p).length).splitOn '/' :=
      (Text.dropTail_prefix _ _).trans ((List.dropLast_prefix _).trans (Text.dropTail_prefix _ _))
    constructor
    · by_cases hq : anchor p ++ ['/'].intercalate (Text.dropTail isIdle (trail p).dropLast) = []
      · rw [hq, isAbsolute_eq_anchor p, (List.append_eq_nil_iff.1 hq).1]
        rfl
      · exact isAbsolute_of_prefix (by simpa using anchored_prefix hrest) (by simpa [← String.toList_inj] using hq)
    · rw [route_eq_names, String.toList_ofList, names_anchor_append hrest, filter_dropTail, hroute, htrail]
      simp [hlast]

theorem exists_parent {way : List String} {name : String} (h : route p = way ++ [name]) :
    ∃ q, parent? p = some q := by
  have hne : trail p ≠ [] := by
    intro hnil
    rw [route_eq_names, names_trail, hnil] at h
    simp at h
  exact ⟨_, by rw [parent?, if_neg (by simpa using hne)]⟩

theorem route_push (p : Path) {name : String} (hslash : '/' ∉ name.toList) (hleads : leads name = true) :
    route (push p name) = route p ++ [name] := by
  have hidle : isIdle name.toList = false := by
    rw [← String.ofList_toList (s := name), leads_ofList] at hleads
    simpa using hleads
  rw [route_eq_names, names_push p (isAbsolute_eq_false hslash), names_of_segment hslash hidle, List.map_append,
    ← route_eq_names]
  simp

theorem getLast?_push {c : Char} (h : q.toList.getLast? = some c) :
    (push p q).toList.getLast? = some c := by
  have hne : q.toList ≠ [] := by
    intro hnil
    rw [hnil] at h
    cases h
  rw [push]
  split
  · exact h
  · split
    · rw [String.toList_append, List.getLast?_append_of_ne_nil _ hne, h]
    · rw [String.toList_append, List.getLast?_append_of_ne_nil _ hne, h]

end Path

end Stencil
