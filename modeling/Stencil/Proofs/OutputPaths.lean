import Stencil.Emission.Basic
import Stencil.Proofs.FilePlaces
import Stencil.Proofs.HandleErasure
import Stencil.Proofs.LoadedTables

/-! Where the files of a table go. Main statement: two declarations get the same path exactly if the parts that count
lead along the same names; where no slash occurs, that means the same simple name and the same directories, and a
package whose dots all separate something has directories of its own. -/
namespace Stencil

theorem Target.extension_segment (target : Target) : '/' ∉ target.dialect.extension.toList ∧
    target.dialect.extension.toList ≠ [] ∧ '.' ∉ target.dialect.extension.toList := by
  cases target with
  | csharp indent policy => exact (by decide : '/' ∉ "cs".toList ∧ "cs".toList ≠ [] ∧ '.' ∉ "cs".toList)
  | brace => decide

namespace Declaration

variable (d : Declaration)

def directories : List (List Char) := (d.package.toList.splitOn '.').filter (!·.isEmpty)

def SlashFree : Prop := '/' ∉ d.package.toList ∧ '/' ∉ d.name.toList

/-- Each dot of the package stands between two segments. -/
def DotsSeparate : Prop := d.package = "" ∨ [] ∉ d.package.toList.splitOn '.'

/-- A directory or the name begins with a slash, and the path begins there. -/
def rooted : Bool := d.directories.any (·.head? == some '/') || Path.isAbsolute d.name

/-- The path begins with a dot, which is the current directory if nothing is in front of it. -/
def dotted : Bool := d.directories.isEmpty && ['.', '/'].isPrefixOf d.name.toList

def parts (δ : Dialect) : List Path := d.directories.map String.ofList ++ [d.name ++ "." ++ δ.extension]

/-- The names behind the root, or behind the last part that begins with a slash. -/
def steps (δ : Dialect) : List (List Char) := (Path.lastRooted (d.parts δ)).flatMap (Path.names ·.toList)

variable {d} {e : Declaration} {δ : Dialect}

theorem outputPath_eq_foldl (δ : Dialect) (root : Path) (d : Declaration) :
    d.outputPath δ root = (d.parts δ).foldl Path.push root := by
  rw [parts, List.foldl_append]
  rfl

theorem rooted_eq_any (d : Declaration) (δ : Dialect) : d.rooted = (d.parts δ).any Path.isAbsolute := by
  have hname : Path.isAbsolute (d.name ++ "." ++ δ.extension) = Path.isAbsolute d.name := by
    by_cases hempty : d.name = ""
    · simp [hempty, Path.isAbsolute]
    · rw [String.append_assoc, Path.isAbsolute_append hempty]
  have hdirectory : Path.isAbsolute ∘ String.ofList = fun s : List Char => s.head? == some '/' := by
    funext s
    simp [Path.isAbsolute]
  rw [parts, List.any_append, List.any_map, hdirectory, List.any_cons, List.any_nil, Bool.or_false, hname, rooted]

theorem mem_directories {s : List Char} (h : s ∈ d.directories) :
    s ≠ [] ∧ '.' ∉ s ∧ ∀ c ∈ s, c ∈ d.package.toList := by
  obtain ⟨hsplit, hne⟩ := List.mem_filter.1 h
  exact ⟨by simpa using hne, mem_splitOn hsplit⟩

theorem package_eq_of_directories_eq (hd : d.DotsSeparate) (he : e.DotsSeparate)
    (h : d.directories = e.directories) : d.package = e.package := by
  have hempty {d : Declaration} (hp : d.package = "") : d.directories = [] := by simp [directories, hp]
  have hfull {d : Declaration} (hd : [] ∉ d.package.toList.splitOn '.') :
      d.directories = d.package.toList.splitOn '.' := by
    rw [directories, List.filter_eq_self]
    intro s hs
    have hs' : s ≠ [] := fun hnil => hd (hnil ▸ hs)
    simpa using hs'
  have hne {d : Declaration} (hd : [] ∉ d.package.toList.splitOn '.') : d.directories ≠ [] := by
    rw [hfull hd]
    exact List.splitOn_ne_nil _ _
  cases hd with
  | inl hd =>
    cases he with
    | inl he => rw [hd, he]
    | inr he => exact absurd (h.symm.trans (hempty hd)) (hne he)
  | inr hd =>
    cases he with
    | inl he => exact absurd (h.trans (hempty he)) (hne hd)
    | inr he =>
      rw [hfull hd, hfull he] at h
      have hjoin := congrArg (['.'].intercalate ·) h
      simpa only [List.intercalate_splitOn, String.toList_inj] using hjoin

theorem anchor_fileName {name ext : List Char} (hname : name.head? ≠ some '/') (hext : '/' ∉ ext) (hne : ext ≠ []) :
    Path.anchor (.ofList (name ++ '.' :: ext)) = if ['.', '/'].isPrefixOf name then ['.'] else [] := by
  rw [Path.anchor, String.toList_ofList]
  cases name with
  | nil =>
    obtain ⟨c, cs, rfl⟩ := List.exists_cons_of_ne_nil hne
    have hc : c ≠ '/' := fun h => hext (h ▸ List.mem_cons_self)
    simp [hc]
  | cons c cs =>
    have hc : c ≠ '/' := fun h => hname (h ▸ rfl)
    by_cases hdot : c = '.'
    · subst hdot
      cases cs with
      | nil => simp
      | cons c' cs =>
        by_cases hslash : c' = '/'
        · subst hslash
          rfl
        · simp [hslash, Ne.symm hslash]
    · simp [hc, hdot, Ne.symm hdot]

theorem components_below (d : Declaration) (target : Target) (h : d.rooted = false) :
    Path.components (d.outputPath target.dialect "") =
      if d.dotted then ['.'] :: d.steps target.dialect else d.steps target.dialect := by
  have hrelative : (d.parts target.dialect).any Path.isAbsolute = false := d.rooted_eq_any _ ▸ h
  have hanchor : Path.anchor (d.outputPath target.dialect "") = if d.dotted then ['.'] else [] := by
    rw [outputPath_eq_foldl]
    rw [parts] at hrelative ⊢
    cases hdirs : d.directories with
    | nil =>
      obtain ⟨hslash, hext, -⟩ := target.extension_segment
      rw [rooted, Bool.or_eq_false_iff] at h
      have hname : d.name.toList.head? ≠ some '/' := by simpa [Path.isAbsolute] using h.2
      have hfile : d.name ++ "." ++ target.dialect.extension =
          .ofList (d.name.toList ++ '.' :: target.dialect.extension.toList) := by simp [← String.toList_inj]
      rw [List.map_nil, List.nil_append, List.foldl_cons, List.foldl_nil, Path.empty_push, hfile,
        anchor_fileName hname hslash hext, dotted, hdirs]
      rfl
    | cons s rest =>
      obtain ⟨hne, hdot, -⟩ := mem_directories (hdirs ▸ List.mem_cons_self : s ∈ d.directories)
      rw [hdirs, List.map_cons, List.cons_append, List.any_cons, Bool.or_eq_false_iff] at hrelative
      rw [List.map_cons, List.cons_append, List.foldl_cons, Path.empty_push,
        Path.anchor_foldl_push hrelative.2 (by simpa [← String.toList_inj] using hne),
        Path.anchor_of_dot_not_mem (by simpa using hdot) hrelative.1, dotted, hdirs]
      rfl
  rw [Path.components_eq, hanchor, outputPath_eq_foldl, Path.names_foldl_push hrelative, steps,
    Path.lastRooted_of_relative hrelative]
  cases d.dotted <;> rfl

theorem components_outputPath (d : Declaration) (target : Target) (root : Path) :
    Path.components (d.outputPath target.dialect root) =
      if d.rooted then ['/'] :: d.steps target.dialect
      else if root = "" ∧ d.dotted then ['.'] :: d.steps target.dialect
      else Path.components root ++ d.steps target.dialect := by
  cases hrooted : d.rooted with
  | true =>
    rw [if_pos rfl, outputPath_eq_foldl]
    exact Path.components_foldl_push_of_rooted (d.rooted_eq_any _ ▸ hrooted) root
  | false =>
    rw [if_neg Bool.false_ne_true]
    by_cases hroot : root = ""
    · subst hroot
      rw [d.components_below target hrooted]
      simp [Path.components, Path.anchor, Path.isIdle]
    · have hrelative : (d.parts target.dialect).any Path.isAbsolute = false := d.rooted_eq_any _ ▸ hrooted
      rw [if_neg fun h => hroot h.1, outputPath_eq_foldl, Path.components_foldl_push hrelative hroot, steps,
        Path.lastRooted_of_relative hrelative]

/-- The ways in which two declarations get the same path. -/
inductive Collide (δ : Dialect) (root : Path) (d e : Declaration) : Prop
  | outside (hd : d.rooted = true) (he : e.rooted = true) (hsteps : d.steps δ = e.steps δ)
  /-- Both paths begin at the root. Without a root a dot in front counts. -/
  | below (hd : d.rooted = false) (he : e.rooted = false) (hsteps : d.steps δ = e.steps δ)
      (hdot : root = "" → d.dotted = e.dotted)
  | leads (hd : d.rooted = true) (he : e.rooted = false)
      (hsteps : ['/'] :: d.steps δ = Path.components root ++ e.steps δ)
  | led (hd : d.rooted = false) (he : e.rooted = true)
      (hsteps : ['/'] :: e.steps δ = Path.components root ++ d.steps δ)

theorem slash_not_mem_steps (d : Declaration) (δ : Dialect) : ['/'] ∉ d.steps δ := by
  intro h
  obtain ⟨p, -, hp⟩ := List.mem_flatMap.1 h
  exact Path.slash_not_mem_names _ hp

theorem dot_not_mem_steps (d : Declaration) (δ : Dialect) : ['.'] ∉ d.steps δ := by
  intro h
  obtain ⟨p, -, hp⟩ := List.mem_flatMap.1 h
  exact Path.dot_not_mem_names _ hp

section Same

variable (target : Target) (root : Path)

theorem same_iff_of_outside (hd : d.rooted = true) (he : e.rooted = true) :
    Path.Same (d.outputPath target.dialect root) (e.outputPath target.dialect root) ↔
      d.steps target.dialect = e.steps target.dialect := by
  simp [Path.Same, components_outputPath, hd, he]

theorem same_iff_of_below (hd : d.rooted = false) (he : e.rooted = false) :
    Path.Same (d.outputPath target.dialect root) (e.outputPath target.dialect root) ↔
      d.steps target.dialect = e.steps target.dialect ∧ (root = "" → d.dotted = e.dotted) := by
  have hne (d e : Declaration) : ['.'] :: d.steps target.dialect ≠ e.steps target.dialect := fun h =>
    e.dot_not_mem_steps target.dialect (h ▸ List.mem_cons_self)
  rw [Path.Same, components_outputPath, components_outputPath, hd, he]
  by_cases hroot : root = ""
  · have hempty : Path.components "" = [] := by decide
    cases hdot : d.dotted with
    | true => cases hdot' : e.dotted <;> simp [hroot, hempty, hne]
    | false => cases hdot' : e.dotted <;> simp [hroot, hempty, (hne _ _).symm]
  · simp [hroot]

theorem same_iff_of_leads (hd : d.rooted = true) (he : e.rooted = false) :
    Path.Same (d.outputPath target.dialect root) (e.outputPath target.dialect root) ↔
      ['/'] :: d.steps target.dialect = Path.components root ++ e.steps target.dialect := by
  rw [Path.Same, components_outputPath, components_outputPath, hd, he, if_pos rfl, if_neg Bool.false_ne_true]
  by_cases hdot : root = "" ∧ e.dotted
  · have hempty : Path.components root = [] := by rw [hdot.1]; decide
    have hne : ['/'] :: d.steps target.dialect ≠ e.steps target.dialect := fun h =>
      e.slash_not_mem_steps target.dialect (h ▸ List.mem_cons_self)
    rw [if_pos hdot, hempty, List.nil_append]
    simp [hne]
  · rw [if_neg hdot]

theorem same_iff_collide (d e : Declaration) :
    Path.Same (d.outputPath target.dialect root) (e.outputPath target.dialect root) ↔
      d.Collide target.dialect root e := by
  have hsymm : Path.Same (d.outputPath target.dialect root) (e.outputPath target.dialect root) ↔
      Path.Same (e.outputPath target.dialect root) (d.outputPath target.dialect root) := eq_comm
  constructor
  · intro h
    cases hd : d.rooted with
    | true =>
      cases he : e.rooted with
      | true => exact .outside hd he ((same_iff_of_outside target root hd he).1 h)
      | false => exact .leads hd he ((same_iff_of_leads target root hd he).1 h)
    | false =>
      cases he : e.rooted with
      | true => exact .led hd he ((same_iff_of_leads target root he hd).1 (hsymm.1 h))
      | false =>
        obtain ⟨hsteps, hdot⟩ := (same_iff_of_below target root hd he).1 h
        exact .below hd he hsteps hdot
  · intro h
    cases h with
    | outside hd he hsteps => exact (same_iff_of_outside target root hd he).2 hsteps
    | below hd he hsteps hdot => exact (same_iff_of_below target root hd he).2 ⟨hsteps, hdot⟩
    | leads hd he hsteps => exact (same_iff_of_leads target root hd he).2 hsteps
    | led hd he hsteps => exact hsymm.2 ((same_iff_of_leads target root he hd).2 hsteps)

end Same

section SlashFree

variable (target : Target)

theorem fileName_segment (h : d.SlashFree) :
    '/' ∉ d.name.toList ++ '.' :: target.dialect.extension.toList ∧
      Path.names (d.name.toList ++ '.' :: target.dialect.extension.toList) =
        [d.name.toList ++ '.' :: target.dialect.extension.toList] := by
  obtain ⟨hslash, hext, -⟩ := target.extension_segment
  have hfree : '/' ∉ d.name.toList ++ '.' :: target.dialect.extension.toList := by simp [h.2, hslash]
  refine ⟨hfree, Path.names_of_segment hfree ?_⟩
  cases hname : d.name.toList <;> simp [Path.isIdle, hext]

theorem directory_segment (h : d.SlashFree) {s : List Char} (hs : s ∈ d.directories) :
    '/' ∉ s ∧ Path.names s = [s] := by
  obtain ⟨hne, hdot, hsub⟩ := mem_directories hs
  have hfree : '/' ∉ s := fun hmem => h.1 (hsub _ hmem)
  refine ⟨hfree, Path.names_of_segment hfree ?_⟩
  have hidle : s ≠ ['.'] := by
    intro hs
    simp [hs] at hdot
  simp [Path.isIdle, hne, hidle]

theorem rooted_of_slashFree (h : d.SlashFree) : d.rooted = false := by
  have hhead {s : List Char} (hs : '/' ∉ s) : (s.head? == some '/') = false := by
    have hne : s.head? ≠ some '/' := fun hhead => hs (List.mem_of_mem_head? hhead)
    simpa using hne
  rw [rooted, Bool.or_eq_false_iff, List.any_eq_false]
  exact ⟨fun s hs => by simp [hhead (directory_segment h hs).1], Path.isAbsolute_eq_false h.2⟩

theorem steps_of_slashFree (h : d.SlashFree) : d.steps target.dialect =
    d.directories ++ [d.name.toList ++ '.' :: target.dialect.extension.toList] := by
  have hrelative := d.rooted_eq_any target.dialect ▸ rooted_of_slashFree h
  have hdirectories : d.directories.flatMap Path.names = d.directories := by
    calc
      d.directories.flatMap Path.names = d.directories.flatMap fun s => [s] :=
        List.flatMap_congr fun s hs => (directory_segment h hs).2
      _ = d.directories := List.flatMap_singleton' _
  rw [steps, Path.lastRooted_of_relative hrelative, parts, List.flatMap_append, List.flatMap_map]
  simp only [String.toList_ofList, List.flatMap_singleton, hdirectories]
  simpa using (fileName_segment target h).2

theorem segments_inj (δ : Dialect) :
    d.directories ++ [d.name.toList ++ '.' :: δ.extension.toList] =
      e.directories ++ [e.name.toList ++ '.' :: δ.extension.toList] ↔
    d.name = e.name ∧ d.directories = e.directories := by
  constructor
  · intro h
    obtain ⟨hdirs, hfile⟩ := List.append_inj' h rfl
    rw [List.singleton_inj, List.append_cancel_right_eq, String.toList_inj] at hfile
    exact ⟨hfile, hdirs⟩
  · rintro ⟨hname, hdirs⟩
    rw [hname, hdirs]

theorem same_iff_of_slashFree (root : Path) (hd : d.SlashFree) (he : e.SlashFree) :
    Path.Same (d.outputPath target.dialect root) (e.outputPath target.dialect root) ↔
      d.name = e.name ∧ d.directories = e.directories := by
  have hdot {d : Declaration} (hd : d.SlashFree) : d.dotted = false := by
    have hprefix : ¬['.', '/'] <+: d.name.toList := fun h => hd.2 (h.subset (by simp))
    rw [dotted, Bool.and_eq_false_iff]
    exact .inr (Bool.eq_false_iff.2 fun h => hprefix (List.isPrefixOf_iff_prefix.1 h))
  rw [same_iff_of_below target root (rooted_of_slashFree hd) (rooted_of_slashFree he), hdot hd, hdot he,
    steps_of_slashFree target hd, steps_of_slashFree target he, ← segments_inj target.dialect]
  simp

/-- Where no slash occurs, the file is below the place of the root, in the directories of its package. -/
theorem location_outputPath (root : Path) (h : d.SlashFree) :
    FileTree.location (d.outputPath target.dialect root) =
      FileTree.location root ++
        (d.directories ++ [d.name.toList ++ '.' :: target.dialect.extension.toList]).map String.ofList := by
  have hrelative := d.rooted_eq_any target.dialect ▸ rooted_of_slashFree h
  have hroute : Path.route (d.outputPath target.dialect root) = Path.route root ++
      (d.directories ++ [d.name.toList ++ '.' :: target.dialect.extension.toList]).map String.ofList := by
    rw [Path.route_eq_names, Path.route_eq_names, outputPath_eq_foldl, Path.names_foldl_push hrelative, List.map_append,
      ← steps_of_slashFree target h, steps, Path.lastRooted_of_relative hrelative]
  have hstart : FileTree.start (d.outputPath target.dialect root) = FileTree.start root := by
    rw [FileTree.start, FileTree.start, outputPath_eq_foldl, Path.isAbsolute_foldl_push hrelative]
  have hup : ['.', '.'] ∉ d.directories ++ [d.name.toList ++ '.' :: target.dialect.extension.toList] := by
    rw [List.mem_append, List.mem_singleton, not_or]
    constructor
    · intro hmem
      exact (mem_directories hmem).2.1 List.mem_cons_self
    · intro hfile
      obtain ⟨-, hext, hdot⟩ := target.extension_segment
      have hlast := congrArg List.getLast? hfile
      rw [List.getLast?_append_cons, List.getLast?_cons_of_ne_nil hext] at hlast
      exact hdot (List.mem_of_getLast? hlast.symm)
  rw [FileTree.location, FileTree.location, hstart, hroute, Location.follow_append, Location.follow_of_names]
  intro hmem
  obtain ⟨s, hs, hs'⟩ := List.mem_map.1 hmem
  obtain rfl : s = ['.', '.'] := by simpa [← String.toList_inj] using hs'
  exact hup hs

theorem location_inj_of_slashFree (root : Path) (hd : d.SlashFree) (he : e.SlashFree) :
    FileTree.location (d.outputPath target.dialect root) = FileTree.location (e.outputPath target.dialect root) ↔
      d.name = e.name ∧ d.directories = e.directories := by
  have hofList : Function.Injective String.ofList := fun s s' h => by simpa [← String.toList_inj] using h
  rw [location_outputPath target root hd, location_outputPath target root he, List.append_cancel_left_eq,
    hofList.list_map.eq_iff, segments_inj]

end SlashFree

end Declaration

namespace Table

variable {t : Table}

def PathsApart (δ : Dialect) (root : Path) (t : Table) : Prop :=
  ∀ (i j : Nat) (d e : Declaration), t.declarations[i]? = some d → t.declarations[j]? = some e → i ≠ j →
    ¬Path.Same (d.outputPath δ root) (e.outputPath δ root)

/-- Two declarations of a table that was read get the same path exactly if they collide, and their files then have one
place. Where no slash occurs, the paths or the places are the same exactly if the declarations have the same simple
name in the same directories; and never if all dots of the packages separate something. -/
theorem outputPath_same_iff_collide {text : String} (hload : ofText text = .ok t) {i j : Nat} {d e : Declaration}
    (hi : t.declarations[i]? = some d) (hj : t.declarations[j]? = some e) (hij : i ≠ j)
    (target : Target) (root : Path) :
    (Path.Same (d.outputPath target.dialect root) (e.outputPath target.dialect root) ↔
      d.Collide target.dialect root e) ∧
    (d.Collide target.dialect root e →
      FileTree.location (d.outputPath target.dialect root) = FileTree.location (e.outputPath target.dialect root)) ∧
    (d.SlashFree → e.SlashFree →
      (Path.Same (d.outputPath target.dialect root) (e.outputPath target.dialect root) ↔
        d.name = e.name ∧ d.directories = e.directories) ∧
      (FileTree.location (d.outputPath target.dialect root) = FileTree.location (e.outputPath target.dialect root) ↔
        d.name = e.name ∧ d.directories = e.directories) ∧
      (d.DotsSeparate → e.DotsSeparate →
        ¬Path.Same (d.outputPath target.dialect root) (e.outputPath target.dialect root) ∧
        FileTree.location (d.outputPath target.dialect root) ≠
          FileTree.location (e.outputPath target.dialect root))) := by
  have hcollide := Declaration.same_iff_collide target root d e
  refine ⟨hcollide, fun h => FileTree.location_eq_of_same (hcollide.2 h), fun hslash hslash' => ?_⟩
  have hsame := Declaration.same_iff_of_slashFree target root hslash hslash'
  have hplace := Declaration.location_inj_of_slashFree target root hslash hslash'
  refine ⟨hsame, hplace, fun hdots hdots' => ?_⟩
  -- the same package and the same name would make one qualified name of two
  have hapart : ¬(d.name = e.name ∧ d.directories = e.directories) := by
    rintro ⟨hname, hdirs⟩
    have hpackage := Declaration.package_eq_of_directories_eq hdots hdots' hdirs
    have hqualified : d.qualifiedName = e.qualifiedName := by
      rw [Declaration.qualifiedName, Declaration.qualifiedName, hname, hpackage]
    exact hij (position_unique (namesUnique_of_ofText hload) hi hj hqualified)
  exact ⟨fun h => hapart (hsame.1 h), fun h => hapart (hplace.1 h)⟩

-- the texts of the paths need not be the same
example : Path.Same "out/a/X.cs" "out/a//X.cs" ∧ Path.Same "out/X.cs" "out/./X.cs" ∧ ¬Path.Same "X.cs" "./X.cs" := by
  decide

/-- A doubled dot and a slash lead to the same directory as a dot. -/
def sharedPathText : String :=
  "[\x7b\"kind\":\"class\",\"package\":\"a.b\",\"name\":\"X\"\x7d," ++
  "\x7b\"kind\":\"class\",\"package\":\"a..b\",\"name\":\"X\"\x7d," ++
  "\x7b\"kind\":\"class\",\"name\":\"a/b/X\"\x7d]"

theorem sharedPath_loads : ∃ t d e f, ofText sharedPathText = .ok t ∧ t.declarations = [d, e, f] ∧
    (d.package, d.name) = ("a.b", "X") ∧ (e.package, e.name) = ("a..b", "X") ∧ (f.package, f.name) = ("", "a/b/X") := by
  have hread : ((ofText sharedPathText).map fun t => t.declarations.map fun d => (d.package, d.name)) =
      .ok [("a.b", "X"), ("a..b", "X"), ("", "a/b/X")] := by decide +kernel
  obtain ⟨t, ht, hplaces⟩ := map_eq_ok.1 hread
  obtain ⟨d, rest, hd, hfirst, hrest⟩ := List.map_eq_cons_iff.1 hplaces
  obtain ⟨e, rest', he, hsecond, hrest'⟩ := List.map_eq_cons_iff.1 hrest
  obtain ⟨f, hf, hthird⟩ := List.map_eq_singleton_iff.1 hrest'
  exact ⟨t, d, e, f, ht, by rw [hd, he, hf], hfirst, hsecond, hthird⟩

theorem sharedPath_not_pathsApart : ∃ t, ofText sharedPathText = .ok t ∧
    (∀ d ∈ t.declarations, d.outputPath .csharp "out" = "out/a/b/X.cs") ∧ ¬t.PathsApart .csharp "out" := by
  obtain ⟨t, d, e, f, ht, hdecls, hd, he, hf⟩ := sharedPath_loads
  rw [Prod.mk.injEq] at hd he hf
  have hpaths : ∀ x ∈ t.declarations, x.outputPath .csharp "out" = "out/a/b/X.cs" := by
    simp only [hdecls, List.forall_mem_cons, Declaration.outputPath, hd, he, hf]
    decide +kernel
  refine ⟨t, ht, hpaths, fun hapart => hapart 0 1 d e (by simp [hdecls]) (by simp [hdecls]) (by decide) ?_⟩
  rw [hpaths d (by simp [hdecls]), hpaths e (by simp [hdecls])]
  rfl

theorem sharedPath_same_directories : ∃ t d e, ofText sharedPathText = .ok t ∧ t.declarations[0]? = some d ∧
    t.declarations[1]? = some e ∧ d.qualifiedName ≠ e.qualifiedName ∧ d.SlashFree ∧ e.SlashFree ∧
    d.name = e.name ∧ d.directories = e.directories ∧
    Path.Same (d.outputPath Target.brace.dialect "out") (e.outputPath Target.brace.dialect "out") := by
  obtain ⟨t, d, e, f, ht, hdecls, hd, he, -⟩ := sharedPath_loads
  rw [Prod.mk.injEq] at hd he
  have hget : t.declarations[0]? = some d := by simp [hdecls]
  have hget' : t.declarations[1]? = some e := by simp [hdecls]
  have hslash : d.SlashFree := by
    rw [Declaration.SlashFree, hd.1, hd.2]
    decide
  have hslash' : e.SlashFree := by
    rw [Declaration.SlashFree, he.1, he.2]
    decide
  have hsame : d.name = e.name ∧ d.directories = e.directories := by
    refine ⟨hd.2.trans he.2.symm, ?_⟩
    simp only [Declaration.directories, hd.1, he.1]
    decide
  have hne : d.qualifiedName ≠ e.qualifiedName := by
    simp only [Declaration.qualifiedName, hd.1, hd.2, he.1, he.2]
    decide
  obtain ⟨-, -, hplaces⟩ := outputPath_same_iff_collide ht hget hget' (by decide) .brace "out"
  exact ⟨t, d, e, ht, hget, hget', hne, hslash, hslash', hsame.1, hsame.2, (hplaces hslash hslash').1.2 hsame⟩

end Table

end Stencil
