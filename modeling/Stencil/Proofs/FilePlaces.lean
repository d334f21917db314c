import Stencil.Files.Tree
import Stencil.Proofs.Outcomes
import Stencil.Proofs.PathRoutes

/-! Places of paths. Where a path leads to can be read off the path: a tree decides whether it leads anywhere, but not
where. The same holds of the places on the way and of the place where a file is staged. -/
namespace Stencil

namespace Location

def step (l : Location) (segment : String) : Location := if segment = ".." then above l else l ++ [segment]

def follow (l : Location) (route : List String) : Location := route.foldl step l

theorem follow_concat (l : Location) (route : List String) {name : String} (h : name ≠ "..") :
    l.follow (route ++ [name]) = l.follow route ++ [name] := by
  simp [follow, step, h]

theorem follow_append (l : Location) (way way' : List String) : l.follow (way ++ way') = (l.follow way).follow way' :=
  List.foldl_append

theorem follow_of_names (l : Location) {route : List String} (h : ".." ∉ route) : l.follow route = l ++ route := by
  induction route generalizing l with
  | nil => simp [follow]
  | cons name route ih =>
    rw [List.mem_cons, not_or] at h
    have hstep : l.step name = l ++ [name] := if_neg (Ne.symm h.1)
    rw [follow, List.foldl_cons, ← follow, hstep, ih (l ++ [name]) h.2, List.append_assoc, List.singleton_append]

end Location

namespace FileTree

/-- The place that a path leads to if it leads anywhere. -/
def location (p : Path) : Location := (start p).follow (Path.route p)

def places (p : Path) : List Location := (Path.route p).inits.map (start p).follow

def ancestors (p : Path) : List Location := (Path.route p).dropLast.inits.map (start p).follow

def IsDirectory (t : FileTree) (l : Location) : Prop := ∃ time, t.get? l = some (.directory time)

variable {t : FileTree} {p q : Path} {l k : Location}

theorem mem_places : l ∈ places p ↔ ∃ way, way <+: Path.route p ∧ (start p).follow way = l := by
  simp only [places, List.mem_map, List.mem_inits]

theorem location_mem_places (p : Path) : location p ∈ places p := mem_places.2 ⟨_, List.prefix_rfl, rfl⟩

theorem mem_ancestors : l ∈ ancestors p ↔ ∃ way, way <+: (Path.route p).dropLast ∧ (start p).follow way = l := by
  simp only [ancestors, List.mem_map, List.mem_inits]

theorem ancestors_subset (p : Path) : ancestors p ⊆ places p := by
  intro l hl
  obtain ⟨way, hway, rfl⟩ := mem_ancestors.1 hl
  exact mem_places.2 ⟨way, hway.trans (List.dropLast_prefix _), rfl⟩

theorem location_eq_of_same (h : Path.Same p q) : location p = location q := by
  obtain ⟨hanchor, hnames⟩ := Path.same_iff.1 h
  rw [location, location, start, start, Path.isAbsolute_eq_anchor, Path.isAbsolute_eq_anchor, hanchor,
    Path.route_eq_names, Path.route_eq_names, hnames]

theorem places_parent (h : Path.parent? p = some q) : places q = ancestors p := by
  obtain ⟨hstart, hroute⟩ := Path.parent_route h
  rw [places, ancestors, hroute, start, start, hstart]

section Name

variable {way : List String} {name : String}

theorem location_concat (hroute : Path.route p = way ++ [name]) (hup : name ≠ "..") :
    location p = (start p).follow way ++ [name] := by
  rw [location, hroute, Location.follow_concat _ _ hup]

theorem dropLast_location_mem (hroute : Path.route p = way ++ [name]) (hup : name ≠ "..") :
    (location p).dropLast ∈ ancestors p := by
  refine mem_ancestors.2 ⟨way, by rw [hroute, List.dropLast_concat], ?_⟩
  rw [location_concat hroute hup, List.dropLast_concat]

theorem stagedName_leads (name : String) :
    Path.leads ("." ++ name ++ ".tmp") = true ∧ "." ++ name ++ ".tmp" ≠ ".." := by
  have hlast : ("." ++ name ++ ".tmp").toList.getLast? = some 'p' := by
    rw [String.toList_append, List.getLast?_append_of_ne_nil _ (by simp)]
    rfl
  have hne {s : String} (hs : s.toList.getLast? ≠ some 'p') : "." ++ name ++ ".tmp" ≠ s := fun h => hs (h ▸ hlast)
  refine ⟨?_, hne (by decide)⟩
  rw [Path.leads, decide_eq_true (hne (by decide)), decide_eq_true (hne (by decide))]
  rfl

theorem stagingPath_route (hroute : Path.route p = way ++ [name]) (hup : name ≠ "..") :
    start (FileStore.stagingPath p) = start p ∧
      Path.route (FileStore.stagingPath p) = way ++ ["." ++ name ++ ".tmp"] := by
  have hslash : '/' ∉ name.toList :=
    Path.slash_not_mem_segment (List.mem_of_mem_filter (hroute ▸ List.mem_append_right way List.mem_cons_self))
  have hslash' : '/' ∉ ("." ++ name ++ ".tmp").toList := by simpa [String.toList_append] using hslash
  have hname : Path.fileName? p = some name := by simp [Path.fileName?_eq_route, hroute, hup]
  obtain ⟨q, hq⟩ := Path.exists_parent hroute
  obtain ⟨hstart, hway⟩ := Path.parent_route hq
  have hstaging : FileStore.stagingPath p = q.push ("." ++ name ++ ".tmp") := by
    simp [FileStore.stagingPath, Path.withFileName, hname, hq]
  rw [hstaging, start, start, Path.isAbsolute_push_eq q (Path.isAbsolute_eq_false hslash'), hstart,
    Path.route_push q hslash' (stagedName_leads name).1, hway, hroute, List.dropLast_concat]
  exact ⟨rfl, rfl⟩

theorem location_stagingPath (hroute : Path.route p = way ++ [name]) (hup : name ≠ "..") :
    location (FileStore.stagingPath p) = (location p).dropLast ++ ["." ++ name ++ ".tmp"] := by
  obtain ⟨hstart, hstaging⟩ := stagingPath_route hroute hup
  rw [location_concat hstaging (stagedName_leads name).2, hstart, location_concat hroute hup, List.dropLast_concat]

theorem ancestors_stagingPath (hroute : Path.route p = way ++ [name]) (hup : name ≠ "..") :
    ancestors (FileStore.stagingPath p) = ancestors p := by
  obtain ⟨hstart, hstaging⟩ := stagingPath_route hroute hup
  rw [ancestors, ancestors, hstart, hstaging, hroute, List.dropLast_concat, List.dropLast_concat]

theorem location_stagingPath_ne (hroute : Path.route p = way ++ [name]) (hup : name ≠ "..") :
    location (FileStore.stagingPath p) ≠ location p := by
  rw [location_stagingPath hroute hup, location_concat hroute hup, List.dropLast_concat]
  intro h
  have hname : "." ++ name ++ ".tmp" = name := by simpa using h
  have hlength := congrArg String.length hname
  simp only [String.length_append] at hlength
  have hdot : ".".length = 1 := rfl
  omega

end Name

theorem walk_cons_eq_ok {s : String} {rest : List String} : t.walk l (s :: rest) = .ok k ↔ t.IsDirectory l ∧
    (Path.leads s = false ∧ t.walk l rest = .ok k ∨
      Path.leads s = true ∧ s = ".." ∧ t.walk l.above rest = .ok k ∨
      Path.leads s = true ∧ s ≠ ".." ∧ isName s = true ∧ (t.get? (l ++ [s])).isSome = true ∧
        t.walk (l ++ [s]) rest = .ok k) := by
  cases hl : t.get? l with
  | none => simp [walk, hl, IsDirectory]
  | some n =>
    cases n with
    | file content time => simp [walk, hl, IsDirectory]
    | directory time =>
      have hdir : t.IsDirectory l := ⟨time, hl⟩
      have hidle : (s = "" ∨ s = ".") ↔ Path.leads s = false := by simp [Path.leads, or_iff_not_imp_left]
      rw [walk, hl]
      simp only [hidle, hdir, true_and]
      cases hs : Path.leads s with
      | false => simp
      | true =>
        by_cases hup : s = ".."
        · simp [hup]
        · by_cases hname : isName s = true <;> by_cases hsome : (t.get? (l ++ [s])).isSome = true <;>
            simp [hup, hname, hsome]

theorem walk_location {segments : List String} (h : t.walk l segments = .ok k) :
    k = l.follow (segments.filter Path.leads) := by
  induction segments generalizing l with
  | nil => exact (Except.ok.inj h).symm
  | cons s rest ih =>
    obtain ⟨-, ⟨hs, hrest⟩ | ⟨hs, hup, hrest⟩ | ⟨hs, hup, -, -, hrest⟩⟩ := walk_cons_eq_ok.1 h
    · rw [List.filter_cons_of_neg (by simp [hs])]
      exact ih hrest
    · rw [List.filter_cons_of_pos hs, ih hrest]
      simp [Location.follow, Location.step, hup]
    · rw [List.filter_cons_of_pos hs, ih hrest]
      simp [Location.follow, Location.step, hup]

theorem walk_append (t : FileTree) (l : Location) (way way' : List String) :
    t.walk l (way ++ way') = t.walk l way >>= fun k => t.walk k way' := by
  induction way generalizing l with
  | nil => rfl
  | cons s rest ih =>
    rw [List.cons_append, walk, walk]
    split
    · split
      · exact ih l
      · split
        · exact ih _
        · split
          · rfl
          · split
            · exact ih _
            · rfl
    · rfl

theorem entry_eq_ok {segments : List String} (h : t.entry l segments = .ok k) : ∃ init name dir,
    segments = init ++ [name] ∧ t.walk l init = .ok dir ∧ t.IsDirectory dir ∧ k = dir ++ [name] ∧
      Path.leads name = true ∧ name ≠ ".." ∧ isName name = true := by
  obtain ⟨dir, hdir, hk⟩ := bind_eq_ok.1 h
  split at hk
  · next time name hget hlast =>
    obtain ⟨init, rfl⟩ := List.getLast?_eq_some_iff.1 hlast
    rw [List.dropLast_concat] at hdir
    split at hk
    · cases hk
    · next hname =>
      simp only [not_or, Bool.not_eq_true', Bool.not_eq_false] at hname
      refine ⟨init, name, dir, rfl, hdir, ⟨time, hget⟩, (Except.ok.inj hk).symm, ?_, hname.2.2⟩
      simp [Path.leads, hname.1, hname.2.1]
  · cases hk

theorem entry_places {segments : List String} (hway : segments <+: Path.segments p)
    (h : t.entry (start p) segments = .ok k) :
    k ∈ places p ∧ k.dropLast ∈ places p ∧ k.all Location.isWayOut = false := by
  obtain ⟨init, name, dir, rfl, hdir, -, rfl, hleads, hup, -⟩ := entry_eq_ok h
  refine ⟨mem_places.2 ⟨_, hway.filter _, ?_⟩, mem_places.2 ⟨_, ((List.prefix_append _ _).trans hway).filter _, ?_⟩, ?_⟩
  · rw [List.filter_append, List.filter_singleton, hleads, walk_location hdir]
    exact Location.follow_concat _ _ hup
  · rw [List.dropLast_concat, walk_location hdir]
  · have hslash : name ≠ "/" := by
      intro hname
      have hmem := Path.slash_not_mem_segment (hway.subset (List.mem_append_right init List.mem_cons_self))
      simp [hname] at hmem
    simp [Location.isWayOut, hup, hslash]

theorem entryAt_eq_ok (h : t.entryAt p = .ok k) : p ≠ "" ∧ isPath p = true ∧
    t.entry (start p) (Path.segments p) = .ok k := by
  rw [entryAt] at h
  split at h
  · cases h
  · next hne =>
    split at h
    · next hpath => exact ⟨hne, hpath, h⟩
    · cases h

theorem entryAt_route (h : t.entryAt p = .ok k) : ∃ way name, Path.route p = way ++ [name] ∧ name ≠ ".." ∧
    k = (start p).follow way ++ [name] := by
  obtain ⟨init, name, dir, hsegments, hdir, -, rfl, hleads, hup, -⟩ := entry_eq_ok (entryAt_eq_ok h).2.2
  refine ⟨init.filter Path.leads, name, ?_, hup, by rw [walk_location hdir]⟩
  rw [Path.route, hsegments, List.filter_append, List.filter_singleton, hleads]
  rfl

theorem entryAt_location (h : t.entryAt p = .ok k) : k = location p := by
  obtain ⟨way, name, hroute, hup, rfl⟩ := entryAt_route h
  exact (location_concat hroute hup).symm

theorem resolve_eq_ok : t.resolve p = .ok l ↔
    p ≠ "" ∧ isPath p = true ∧ t.walk (start p) (Path.segments p) = .ok l := by
  by_cases hne : p = "" <;> by_cases hpath : isPath p = true <;> simp [resolve, hne, hpath]

theorem resolve_location (h : t.resolve p = .ok l) : l = location p := walk_location (resolve_eq_ok.1 h).2.2

theorem walk_keeps {t' : FileTree} (hdirs : ∀ l, t.IsDirectory l → t'.IsDirectory l) {segments : List String}
    (h : t.walk l segments = .ok k) (hk : (t'.get? k).isSome = true) : t'.walk l segments = .ok k := by
  induction segments generalizing l with
  | nil => exact h
  | cons s rest ih =>
    obtain ⟨hl, ⟨hs, hrest⟩ | ⟨hs, hup, hrest⟩ | ⟨hs, hup, hname, -, hrest⟩⟩ := walk_cons_eq_ok.1 h
    · exact walk_cons_eq_ok.2 ⟨hdirs l hl, .inl ⟨hs, ih hrest⟩⟩
    · exact walk_cons_eq_ok.2 ⟨hdirs l hl, .inr (.inl ⟨hs, hup, ih hrest⟩)⟩
    · -- what the segment leads to is the end of the way, or it is left again and so a directory
      have hsome : (t'.get? (l ++ [s])).isSome = true := by
        cases rest with
        | nil => exact Except.ok.inj hrest ▸ hk
        | cons r rest =>
          obtain ⟨time, htime⟩ := hdirs _ (walk_cons_eq_ok.1 hrest).1
          simp [htime]
      exact walk_cons_eq_ok.2 ⟨hdirs l hl, .inr (.inr ⟨hs, hup, hname, hsome, ih hrest⟩)⟩

theorem resolve_keeps {t' : FileTree} (hdirs : ∀ l, t.IsDirectory l → t'.IsDirectory l) (h : t.resolve p = .ok l)
    (hl : (t'.get? l).isSome = true) : t'.resolve p = .ok l := by
  obtain ⟨hne, hpath, hwalk⟩ := resolve_eq_ok.1 h
  exact resolve_eq_ok.2 ⟨hne, hpath, walk_keeps hdirs hwalk hl⟩

theorem resolve_of_entryAt {t' : FileTree} (hdirs : ∀ l, t.IsDirectory l → t'.IsDirectory l)
    (h : t.entryAt p = .ok k) (hk : (t'.get? k).isSome = true) : t'.resolve p = .ok k := by
  obtain ⟨hne, hpath, hentry⟩ := entryAt_eq_ok h
  obtain ⟨init, name, dir, hsegments, hdir, hisdir, rfl, hleads, hup, hname⟩ := entry_eq_ok hentry
  obtain ⟨time, htime⟩ := hdirs dir hisdir
  refine resolve_eq_ok.2 ⟨hne, hpath, ?_⟩
  rw [hsegments, walk_append, bind_eq_ok]
  refine ⟨dir, walk_keeps hdirs hdir (by simp [htime]), ?_⟩
  exact walk_cons_eq_ok.2 ⟨⟨time, htime⟩, .inr (.inr ⟨hleads, hup, hname, hk, rfl⟩)⟩

theorem exists_location_concat {c : Char} (hc : p.toList.getLast? = some c) (hslash : c ≠ '/') (hdot : c ≠ '.') :
    ∃ dir name, location p = dir ++ [name] ∧ name.toList.getLast? = some c := by
  obtain ⟨way, name, hroute, hname⟩ := Path.exists_route_concat hc hslash hdot
  have hup : name ≠ ".." := by
    intro h
    rw [h] at hname
    exact hdot (Option.some.inj hname).symm
  exact ⟨(start p).follow way, name, by rw [location, hroute, Location.follow_concat _ _ hup], hname⟩

theorem getLast?_stagingPath (p : Path) : (FileStore.stagingPath p).toList.getLast? = some 'p' := by
  refine Path.getLast?_push ?_
  rw [String.toList_append, List.getLast?_append_of_ne_nil _ (by simp)]
  rfl

end FileTree

end Stencil
