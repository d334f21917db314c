import Stencil.Proofs.FileUpdates

/-! What the update of a file leaves behind. Main statements: an update that succeeds changes nothing but the file and
makes nothing but directories on its way; one that fails leaves all files as they were, unless it fails at the last
step, which leaves the staged file where it is. -/
namespace Stencil

namespace FileTree

open FileStore

variable {t t' : FileTree} {p q : Path} {content : String}

theorem rename_eq_none {content : String} {time : Nat} (hp : t.node? p = some (.file content time))
    (h : t.rename p q = none) : t.IsDirectory (location q) ∨ ∀ l, t.entryAt q ≠ .ok l := by
  obtain ⟨hresolve, hget⟩ := node?_eq_some.1 hp
  by_contra hq
  push Not at hq
  obtain ⟨hfree, l, hl⟩ := hq
  obtain rfl := entryAt_location hl
  have hany : ¬(t.get? (location q)).any FileNode.isDirectory = true := by
    intro hany
    rw [Option.any_eq_true] at hany
    obtain ⟨n, hn, hdir⟩ := hany
    cases n with
    | file _ _ => cases hdir
    | directory time' => exact hfree ⟨time', hn⟩
  simp [rename, hresolve, hl, hget, hany] at h

theorem UpdateEnds.kept {outcome : WriteOutcome} (h : UpdateEnds p content t (.ok outcome) t') (l : Location)
    (hplace : l ≠ location p) (hstaging : l ≠ location (stagingPath p)) :
    KeptAt (ancestors p) (ancestors p) t t' l := by
  cases h with
  | unchanged _ => exact .same rfl
  | written _ hmade hstaged hmoved =>
    obtain ⟨way, name, hroute, hup⟩ := hmoved.named
    have hway := ancestors_stagingPath hroute hup
    obtain ⟨-, hname⟩ := stagingPath_route hroute hup
    have habove : (location (stagingPath p)).dropLast ∈ ancestors p :=
      hway ▸ dropLast_location_mem hname (stagedName_leads name).2
    have hsubset : ancestors (stagingPath p) ⊆ ancestors p := by simp [hway]
    have hwrite := (hstaged.kept l hstaging).mono (List.nil_subset (ancestors p)) hsubset
    have hmove := (hmoved.kept l hstaging hplace).mono (List.nil_subset (ancestors p))
      (List.cons_subset.2 ⟨habove, List.Subset.refl _⟩)
    exact ((hmade l).trans hwrite).trans hmove

theorem UpdateEnds.staging_gone (h : UpdateEnds p content t (.ok .written) t') :
    t'.get? (location (stagingPath p)) = none := by
  cases h with
  | written _ _ _ hmoved =>
    obtain ⟨way, name, hroute, hup⟩ := hmoved.named
    exact hmoved.gone (location_stagingPath_ne hroute hup)

/-- An update reports no change exactly if the file has the content already, and then changes nothing. If it succeeds,
the file has the content, all else is as it was but for directories on the way of the file, and a second update has
nothing to do; what was staged is gone if something was written. -/
theorem update_writes_and_keeps (p : Path) (content : String) (t : FileTree) :
    (∀ t', perform (updateText p content) t = (.ok .unchanged, t') ↔ t.text? p = some content ∧ t' = t) ∧
    ∀ outcome t', perform (updateText p content) t = (.ok outcome, t') →
      t'.text? p = some content ∧
      (∀ l, l ≠ location p → l ≠ location (stagingPath p) → KeptAt (ancestors p) (ancestors p) t t' l) ∧
      perform (updateText p content) t' = (.ok .unchanged, t') ∧
      (outcome = .written → t'.get? (location (stagingPath p)) = none) := by
  constructor
  · intro t'
    constructor
    · intro h
      cases updateText_ends h with
      | unchanged htext => exact ⟨htext, rfl⟩
    · rintro ⟨htext, rfl⟩
      exact updateText_of_text? htext
  · intro outcome t' h
    have hends := updateText_ends h
    have htext := (updateText_eq_ok h).2
    refine ⟨htext, hends.kept, updateText_of_text? htext, ?_⟩
    rintro rfl
    exact hends.staging_gone

def deskTree : FileTree where
  clock := 5
  nodes := [(["notes"], .file "keep" 1), (["out"], .directory 1), (["out", ".F.cs.tmp"], .file "old" 2)]

theorem desk_writes_and_keeps : ∃ t', perform (updateText "new/../out/F.cs" "class F") deskTree = (.ok .written, t') ∧
    t'.text? "new/../out/F.cs" = some "class F" ∧ KeptAt (ancestors "new/../out/F.cs") (ancestors "new/../out/F.cs")
      deskTree t' ["notes"] ∧ t'.IsDirectory ["new"] ∧
    perform (updateText "new/../out/F.cs" "class F") t' = (.ok .unchanged, t') ∧
    t'.get? ["out", ".F.cs.tmp"] = none := by
  have hresult : (perform (updateText "new/../out/F.cs" "class F") deskTree).1 = .ok .written := by decide +kernel
  have hnew : (perform (updateText "new/../out/F.cs" "class F") deskTree).2.get? ["new"] = some (.directory 5) := by
    decide +kernel
  have hstaging : location (stagingPath "new/../out/F.cs") = ["out", ".F.cs.tmp"] := by decide +kernel
  have hrun : perform (updateText "new/../out/F.cs" "class F") deskTree =
      (.ok .written, (perform (updateText "new/../out/F.cs" "class F") deskTree).2) := Prod.ext hresult rfl
  obtain ⟨htext, hkept, hagain, hgone⟩ := (update_writes_and_keeps _ _ _).2 _ _ hrun
  refine ⟨_, hrun, htext, hkept ["notes"] (by decide +kernel) (by decide +kernel), ⟨5, hnew⟩, hagain, ?_⟩
  exact hstaging ▸ hgone rfl

def HoldsFile (t : FileTree) (l : Location) (content : String) : Prop := ∃ time, t.get? l = some (.file content time)

/-- Of a write to a path no trace is left in the files: there are the same files with the same contents, and nothing
is new but directories above. -/
structure Traceless (p : Path) (t t' : FileTree) : Prop where
  files (l : Location) (content : String) : t'.HoldsFile l content ↔ t.HoldsFile l content
  directories (l : Location) (h : t.IsDirectory l) : t'.IsDirectory l
  made (l : Location) (h : t.get? l = none) : t'.get? l = none ∨ l ∈ ancestors p ∧ t'.IsDirectory l

theorem HoldsFile.content_eq {l : Location} {content' : String} (h : t.HoldsFile l content)
    (h' : t.HoldsFile l content') : content = content' := by
  obtain ⟨time, htime⟩ := h
  obtain ⟨time', htime'⟩ := h'
  exact (FileNode.file.inj (Option.some.inj (htime.symm.trans htime'))).1

theorem traceless_of_kept {entered : List Location} (hkept : ∀ l, KeptAt (ancestors p) entered t t' l ∨
    ∃ content, t.HoldsFile l content ∧ t'.HoldsFile l content) : Traceless p t t' where
  files l content := by
    obtain h | ⟨content', hold, hnew⟩ := hkept l
    · exact exists_congr fun time => h.file_iff content time
    · constructor
      · intro h
        exact hnew.content_eq h ▸ hold
      · intro h
        exact hold.content_eq h ▸ hnew
  directories l hl := by
    obtain h | ⟨_, ⟨_, hold⟩, _⟩ := hkept l
    · exact h.directory hl
    · obtain ⟨time, htime⟩ := hl
      exact nomatch htime.symm.trans hold
  made l hl := by
    obtain (h | ⟨hmem, _, h⟩ | ⟨_, ⟨_, h⟩, _⟩) | ⟨_, ⟨_, hold⟩, _⟩ := hkept l
    · exact .inl (h.trans hl)
    · exact .inr ⟨hmem, h⟩
    · exact nomatch hl.symm.trans h
    · exact nomatch hl.symm.trans hold

theorem UpdateEnds.kept_of_error {e : WriteError} (h : UpdateEnds p content t (.error e) t') (l : Location)
    (hl : l ≠ location (stagingPath p) ∨ e ≠ .move p) :
    KeptAt (ancestors p) (ancestors p ++ ancestors (stagingPath p)) t t' l := by
  have hway : ancestors p ⊆ ancestors p ++ ancestors (stagingPath p) := List.subset_append_left _ _
  have hmono {u : FileTree} (hmade : ∀ l, KeptAt (ancestors p) (ancestors p) t u l) :=
    (hmade l).mono (List.Subset.refl _) hway
  cases h with
  | noDirectory _ _ hmade => exact hmono hmade
  | notStaged _ hmade _ => exact hmono hmade
  | notMoved _ hmade hstaged _ =>
    have hne : l ≠ location (stagingPath p) := hl.resolve_right (not_not.2 rfl)
    exact (hmono hmade).trans ((hstaged.kept l hne).mono (List.nil_subset _) (List.subset_append_right _ _))

/-- A failed update leaves every place as it was, but for directories on its way and the place where the file is staged.
If it fails at the last step, since the file cannot be moved where a directory stands or no entry can be made, the
content stays there. So no trace is left exactly if it fails before, or a file with this content was staged already. -/
theorem failed_update_traces {e : WriteError} (h : perform (updateText p content) t = (.error e, t')) :
    (∀ l, l ≠ location (stagingPath p) →
      KeptAt (ancestors p) (ancestors p ++ ancestors (stagingPath p)) t t' l) ∧
    (e = .move p → t'.text? (stagingPath p) = some content ∧
      (t'.IsDirectory (location p) ∨ ∀ l, t'.entryAt p ≠ .ok l)) ∧
    (Traceless p t t' ↔ (e = .move p → t.HoldsFile (location (stagingPath p)) content)) := by
  have hends := updateText_ends h
  have hkept (l : Location) (hl : l ≠ location (stagingPath p)) := hends.kept_of_error l (.inl hl)
  by_cases he : e = .move p
  · subst he
    cases hends with
    | @notMoved t₁ _ _ hmade hstaged hmoved =>
      have hnew := (node?_eq_some.1 hstaged.node).2
      refine ⟨hkept, fun _ => ⟨text?_eq_some.2 ⟨_, hstaged.node⟩, rename_eq_none hstaged.node hmoved⟩, ?_⟩
      constructor
      · intro htraceless _
        exact (htraceless.files _ _).1 ⟨_, hnew⟩
      · intro hold
        have hsame (l : Location) : KeptAt (ancestors p) (ancestors p ++ ancestors (stagingPath p)) t t' l ∨
            ∃ content, t.HoldsFile l content ∧ t'.HoldsFile l content := by
          by_cases hl : l = location (stagingPath p)
          · rw [hl]
            exact .inr ⟨content, hold rfl, _, hnew⟩
          · exact .inl (hkept l hl)
        exact traceless_of_kept hsame
  · refine ⟨hkept, fun h => absurd h he, iff_of_true ?_ fun h => absurd h he⟩
    exact traceless_of_kept fun l => .inl (hends.kept_of_error l (.inr he))

theorem desk_traceless : ∃ e t', perform (updateText "new/../notes/F.cs" "class F") deskTree = (.error e, t') ∧
    e = .directory "new/../notes" ∧ Traceless "new/../notes/F.cs" deskTree t' := by
  have hresult : (perform (updateText "new/../notes/F.cs" "class F") deskTree).1 =
      .error (.directory "new/../notes") := by decide +kernel
  have hrun : perform (updateText "new/../notes/F.cs" "class F") deskTree = (.error (.directory "new/../notes"),
      (perform (updateText "new/../notes/F.cs" "class F") deskTree).2) := Prod.ext hresult rfl
  exact ⟨_, _, hrun, rfl, (failed_update_traces hrun).2.2.2 fun h => nomatch h⟩

/-- A directory stands where the file should be. -/
def drawerTree : FileTree where
  clock := 5
  nodes := [(["a"], .directory 1), (["a", "b"], .file "x" 1)]

theorem drawer_not_traceless : ∃ e t', perform (updateText "a" "y") drawerTree = (.error e, t') ∧
    ¬Traceless "a" drawerTree t' := by
  have hresult : (perform (updateText "a" "y") drawerTree).1 = .error (.move "a") := by decide +kernel
  have hleft : (perform (updateText "a" "y") drawerTree).2.get? [".a.tmp"] = some (.file "y" 5) := by decide +kernel
  have hbefore : drawerTree.get? [".a.tmp"] = none := by decide +kernel
  refine ⟨.move "a", _, Prod.ext hresult rfl, fun htraceless => ?_⟩
  obtain ⟨time, htime⟩ := (htraceless.files [".a.tmp"] "y").1 ⟨5, hleft⟩
  exact nomatch hbefore.symm.trans htime

end FileTree

end Stencil
