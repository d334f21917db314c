import Stencil.Proofs.FilePlaces

/-! What writing a file does to a tree: the ways in which it can end, and how each place is found again after it. All
directories stay, all other files stay unless the file is staged there, nothing is made but on the way to the file, and
the file has the content that was written. -/
namespace Stencil

namespace FileTree

variable {t t' t'' : FileTree} {l k : Location} {n : FileNode} {p q : Path}
  {changed made entered : List Location}

theorem lookup_filter_ne (nodes : List (Location × FileNode)) (h : k ≠ l) :
    (nodes.filter (·.1 ≠ l)).lookup k = nodes.lookup k := by
  induction nodes with
  | nil => rfl
  | cons entry nodes ih =>
    obtain ⟨place, node⟩ := entry
    by_cases hplace : place = l
    · have hk : (k == place) = false := by simpa [hplace] using h
      rw [List.filter_cons_of_neg (by simp [hplace]), ih, List.lookup_cons, hk]
    · rw [List.filter_cons_of_pos (by simp [hplace]), List.lookup_cons, List.lookup_cons, ih]

theorem lookup_filter_self (nodes : List (Location × FileNode)) (l : Location) :
    (nodes.filter (·.1 ≠ l)).lookup l = none := by
  induction nodes with
  | nil => rfl
  | cons entry nodes ih =>
    obtain ⟨place, node⟩ := entry
    by_cases hplace : place = l
    · rw [List.filter_cons_of_neg (by simp [hplace]), ih]
    · have hk : (l == place) = false := by simpa using Ne.symm hplace
      rw [List.filter_cons_of_pos (by simp [hplace]), List.lookup_cons, hk, ih]

theorem lookup_map_snd (nodes : List (Location × FileNode)) (g : Location → FileNode → FileNode) (k : Location) :
    (nodes.map fun entry => (entry.1, g entry.1 entry.2)).lookup k = (nodes.lookup k).map (g k) := by
  induction nodes with
  | nil => rfl
  | cons entry nodes ih =>
    rw [List.map_cons, List.lookup_cons, List.lookup_cons, ih]
    by_cases hk : k = entry.1
    · simp [hk]
    · have hne : (k == entry.1) = false := by simpa using hk
      rw [hne]

theorem get?_erase_of_ne (h : k ≠ l) : (t.erase l).get? k = t.get? k := by
  simp only [get?, erase, lookup_filter_ne _ h]

theorem get?_set_of_ne (h : k ≠ l) : (t.set l n).get? k = t.get? k := by
  have hk : (k == l) = false := by simpa using h
  simp only [get?, set, erase, List.lookup_append, lookup_filter_ne _ h, List.lookup_cons, hk, List.lookup_nil,
    Option.or_none]

theorem get?_set_self (hl : l.all Location.isWayOut = false) : (t.set l n).get? l = some n := by
  simp only [get?, set, erase, hl, List.lookup_append, lookup_filter_self, List.lookup_cons, beq_self_eq_true]
  rfl

theorem get?_touch (t : FileTree) (l k : Location) : (t.touch l).get? k = (t.get? k).map fun n =>
    if k = l ∧ n.isDirectory = true then .directory t.clock else n := by
  by_cases hk : k.all Location.isWayOut = true
  · simp [get?, touch, hk]
  · rw [Bool.not_eq_true] at hk
    simpa [get?, touch, hk] using
      lookup_map_snd t.nodes (fun place n => if place = l ∧ n.isDirectory = true then .directory t.clock else n) k

theorem get?_touch_of_ne (h : k ≠ l) : (t.touch l).get? k = t.get? k := by
  simp [get?_touch, h]

theorem get?_erase_self (hl : l.all Location.isWayOut = false) : (t.erase l).get? l = none := by
  simp only [get?, erase, hl, lookup_filter_self]
  rfl

/-- How a place is found again: it is as it was, or a directory was made there, or it is a directory as before and
has a new entry. -/
inductive KeptAt (made entered : List Location) (t t' : FileTree) (l : Location) : Prop
  | same (h : t'.get? l = t.get? l)
  | made (hl : l ∈ made) (h : t.get? l = none) (h' : t'.IsDirectory l)
  | entered (hl : l ∈ entered) (h : t.IsDirectory l) (h' : t'.IsDirectory l)

namespace KeptAt

theorem directory (h : KeptAt made entered t t' l) (hl : t.IsDirectory l) : t'.IsDirectory l := by
  cases h with
  | same h =>
    obtain ⟨time, htime⟩ := hl
    exact ⟨time, h.trans htime⟩
  | made _ _ h' => exact h'
  | entered _ _ h' => exact h'

theorem file_iff (h : KeptAt made entered t t' l) (content : String) (time : Nat) :
    t'.get? l = some (.file content time) ↔ t.get? l = some (.file content time) := by
  have hne {u : FileTree} (hu : u.IsDirectory l) : u.get? l ≠ some (.file content time) := by
    obtain ⟨_, hu⟩ := hu
    simp [hu]
  cases h with
  | same h => rw [h]
  | made _ h h' => exact iff_of_false (hne h') (by simp [h])
  | entered _ h h' => exact iff_of_false (hne h') (hne h)

theorem missing (h : KeptAt made entered t t' l) (hl : t.get? l = none) (hmade : l ∉ made) : t'.get? l = none := by
  cases h with
  | same h => rw [h, hl]
  | made hmem _ _ => exact absurd hmem hmade
  | entered _ h _ =>
    obtain ⟨time, htime⟩ := h
    exact nomatch hl.symm.trans htime

theorem trans (h : KeptAt made entered t t' l) (h' : KeptAt made entered t' t'' l) :
    KeptAt made entered t t'' l := by
  cases h with
  | same h =>
    cases h' with
    | same h' => exact .same (h'.trans h)
    | made hl hnone hdir => exact .made hl (h ▸ hnone) hdir
    | entered hl hdir hdir' =>
      obtain ⟨time, htime⟩ := hdir
      exact .entered hl ⟨time, h ▸ htime⟩ hdir'
  | made hl hnone hdir => exact .made hl hnone (h'.directory hdir)
  | entered hl hdir hdir' => exact .entered hl hdir (h'.directory hdir')

theorem mono {made' entered' : List Location} (h : KeptAt made entered t t' l) (hmade : made ⊆ made')
    (hentered : entered ⊆ entered') : KeptAt made' entered' t t' l := by
  cases h with
  | same h => exact .same h
  | made hl h h' => exact .made (hmade hl) h h'
  | entered hl h h' => exact .entered (hentered hl) h h'

end KeptAt

theorem keptAt_touch (hl : l ∈ entered) (k : Location) : KeptAt made entered t (t.touch l) k := by
  by_cases hk : k = l
  · subst hk
    cases hget : t.get? k with
    | none => exact .same (by simp [get?_touch, hget])
    | some n =>
      cases n with
      | file content time => exact .same (by simp [get?_touch, hget, FileNode.isDirectory])
      | directory time =>
        exact .entered hl ⟨time, hget⟩ ⟨t.clock, by simp [get?_touch, hget, FileNode.isDirectory]⟩
  · exact .same (get?_touch_of_ne hk)

theorem keptAt_enter (hl : l.dropLast ∈ entered) (hk : k ≠ l) : KeptAt made entered t (t.enter l n) k :=
  .trans (.same (get?_set_of_ne hk)) (keptAt_touch hl k)

/-- All directories stay, files are changed only at some of the given places, and something is made only at others. -/
structure Frames (changed made : List Location) (t t' : FileTree) : Prop where
  directories (l : Location) (h : t.IsDirectory l) : t'.IsDirectory l
  files {l : Location} {content : String} {time : Nat} (h : t.get? l = some (.file content time)) (hl : l ∉ changed) :
    t'.get? l = some (.file content time)
  missing {l : Location} (h : t.get? l = none) (hl : l ∉ made) : t'.get? l = none

theorem Frames.refl (changed made : List Location) (t : FileTree) : Frames changed made t t :=
  ⟨fun _ h => h, fun h _ => h, fun h _ => h⟩

theorem Frames.trans (h : Frames changed made t t') (h' : Frames changed made t' t'') : Frames changed made t t'' where
  directories l hl := h'.directories l (h.directories l hl)
  files hfile hl := h'.files (h.files hfile hl) hl
  missing hnone hl := h'.missing (h.missing hnone hl) hl

theorem Frames.mono {changed' made' : List Location} (h : Frames changed made t t') (hchanged : changed ⊆ changed')
    (hmade : made ⊆ made') : Frames changed' made' t t' where
  directories := h.directories
  files hfile hl := h.files hfile fun hmem => hl (hchanged hmem)
  missing hnone hl := h.missing hnone fun hmem => hl (hmade hmem)

theorem frames_of_keptAt (others : List Location) {ways : List Location}
    (hkept : ∀ k ∉ others, KeptAt ways entered t t' k)
    (hothers : ∀ k ∈ others, ¬t.IsDirectory k ∧ k ∈ changed ∧ k ∈ made) (hways : ways ⊆ made) :
    Frames changed made t t' where
  directories k hk := (hkept k fun hmem => (hothers k hmem).1 hk).directory hk
  files {k content time} hfile hk := ((hkept k fun hmem => hk (hothers k hmem).2.1).file_iff content time).2 hfile
  missing {k} hnone hk := (hkept k fun hmem => hk (hothers k hmem).2.2).missing hnone fun hmem => hk (hways hmem)

theorem ne_nil_of_inside (hl : l.all Location.isWayOut = false) : l ≠ [] := by
  intro h
  simp [h] at hl

theorem get?_enter_self (hl : l.all Location.isWayOut = false) : (t.enter l n).get? l = some n := by
  have hne : l ≠ l.dropLast := by
    intro h
    have hlength := congrArg List.length h
    have hpos := List.length_pos_of_ne_nil (ne_nil_of_inside hl)
    rw [List.length_dropLast] at hlength
    omega
  rw [enter, get?_touch_of_ne hne, get?_set_self hl]

def text? (t : FileTree) (p : Path) : Option String :=
  match t.node? p with
  | some (.file content _) => some content
  | _ => none

theorem text?_eq_some {content : String} : t.text? p = some content ↔ ∃ time, t.node? p = some (.file content time) := by
  cases hn : t.node? p with
  | none => simp [text?, hn]
  | some n => cases n <;> simp [text?, hn]

theorem node?_eq_some : t.node? p = some n ↔ t.resolve p = .ok (location p) ∧ t.get? (location p) = some n := by
  cases hl : t.resolve p with
  | error e => simp [node?, hl]
  | ok l =>
    obtain rfl := resolve_location hl
    simp [node?, hl]

theorem Frames.node? {content : String} {time : Nat} (h : Frames changed made t t') (hp : location p ∉ changed)
    (hn : t.node? p = some (.file content time)) : t'.node? p = some (.file content time) := by
  obtain ⟨hresolve, hget⟩ := node?_eq_some.1 hn
  have hget' := h.files hget hp
  exact node?_eq_some.2 ⟨resolve_keeps h.directories hresolve (by simp [hget']), hget'⟩

theorem not_isWayOut_of_file {content : String} {time : Nat} (h : t.get? l = some (.file content time)) :
    l.all Location.isWayOut = false := by
  by_contra hout
  rw [get?, if_pos (by simpa using hout)] at h
  cases h

theorem makeDirectory_kept (h : t.makeDirectory p = .ok t') (k : Location) :
    KeptAt (places p) (places p) t t' k := by
  rw [makeDirectory] at h
  split at h
  · cases h
  · split at h
    · cases h
    · obtain ⟨l, hl, hrest⟩ := bind_eq_ok.1 h
      split at hrest
      · cases hrest
      · next hfree =>
        rw [Option.not_isSome_iff_eq_none] at hfree
        obtain rfl := Except.ok.inj hrest
        obtain ⟨hplace, habove, hout⟩ := entry_places (Text.dropTail_prefix _ _) hl
        by_cases hk : k = l
        · subst hk
          exact .made hplace hfree ⟨t.clock, get?_enter_self hout⟩
        · exact keptAt_enter habove hk

/-- What it means that a content was put at a path: nothing else has changed but that its directory may have a new
entry. -/
structure Wrote (p : Path) (content : String) (t t' : FileTree) : Prop where
  node : t'.node? p = some (.file content t.clock)
  free : ¬t.IsDirectory (location p)
  kept (l : Location) (hl : l ≠ location p) : KeptAt [] (ancestors p) t t' l

theorem wrote_of_get? (hentry : t.entryAt p = .ok l) {content : String} (hfree : ¬t.IsDirectory l)
    (hnew : t'.get? l = some (.file content t.clock)) (hkept : ∀ k, k ≠ l → KeptAt [] (ancestors p) t t' k) :
    Wrote p content t t' := by
  obtain rfl := entryAt_location hentry
  have hdirs (k : Location) (hk : t.IsDirectory k) : t'.IsDirectory k := by
    have hne : k ≠ location p := fun h => hfree (h ▸ hk)
    exact (hkept k hne).directory hk
  exact ⟨node?_eq_some.2 ⟨resolve_of_entryAt hdirs hentry (by simp [hnew]), hnew⟩, hfree, hkept⟩

theorem wrote_of_writeText {content : String} (h : t.writeText p content = some t') : Wrote p content t t' := by
  rw [writeText] at h
  split at h
  · next l hl =>
    have hout := (entry_places List.prefix_rfl (entryAt_eq_ok hl).2.2).2.2
    obtain ⟨way, name, hroute, hup, -⟩ := entryAt_route hl
    have habove := dropLast_location_mem hroute hup
    rw [← entryAt_location hl] at habove
    split at h
    · cases h
    · next hget =>
      obtain rfl := Option.some.inj h
      exact wrote_of_get? hl (by simp [IsDirectory, hget]) (get?_set_self hout) fun k hk => .same (get?_set_of_ne hk)
    · next hget =>
      obtain rfl := Option.some.inj h
      exact wrote_of_get? hl (by simp [IsDirectory, hget]) (get?_enter_self hout) fun k hk => keptAt_enter habove hk
  · cases h

theorem Wrote.frames {content : String} (h : Wrote p content t t') (hchanged : location p ∈ changed)
    (hmade : location p ∈ made) : Frames changed made t t' := by
  refine frames_of_keptAt [location p] (fun l hl => h.kept l (by simpa using hl)) (fun l hl => ?_) (List.nil_subset _)
  rw [List.mem_singleton] at hl
  rw [hl]
  exact ⟨h.free, hchanged, hmade⟩

structure Moved (p q : Path) (t t' : FileTree) : Prop where
  named : ∃ way name, Path.route q = way ++ [name] ∧ name ≠ ".."
  node : ∃ content time, t.node? p = some (.file content time) ∧ t'.node? q = some (.file content time)
  free : ¬t.IsDirectory (location q)
  gone (hne : location p ≠ location q) : t'.get? (location p) = none
  kept (l : Location) (hp : l ≠ location p) (hq : l ≠ location q) :
    KeptAt [] ((location p).dropLast :: ancestors q) t t' l

def relocate (t : FileTree) (l l' : Location) (n : FileNode) : FileTree :=
  ((t.erase l).touch l.dropLast).enter l' n

theorem relocate_kept {l' : Location} (hl' : l'.dropLast ∈ entered) (hk : k ≠ l) (hk' : k ≠ l') :
    KeptAt made (l.dropLast :: entered) t (t.relocate l l' n) k := by
  have herase : KeptAt made (l.dropLast :: entered) t (t.erase l) k := .same (get?_erase_of_ne hk)
  exact (herase.trans (keptAt_touch List.mem_cons_self k)).trans (keptAt_enter (List.mem_cons_of_mem _ hl') hk')

theorem get?_relocate_old {l' : Location} (hl : l.all Location.isWayOut = false) (hne : l ≠ l') :
    (t.relocate l l' n).get? l = none := by
  have hkept : KeptAt [] [l'.dropLast] ((t.erase l).touch l.dropLast) (t.relocate l l' n) l :=
    keptAt_enter List.mem_cons_self hne
  refine hkept.missing ?_ List.not_mem_nil
  rw [get?_touch, get?_erase_self hl]
  rfl

theorem moved_of_rename (h : t.rename p q = some t') : Moved p q t t' := by
  rw [rename] at h
  split at h
  · next l l' hl hl' =>
    obtain rfl := resolve_location hl
    obtain rfl := entryAt_location hl'
    have hout := (entry_places List.prefix_rfl (entryAt_eq_ok hl').2.2).2.2
    obtain ⟨way, name, hroute, hup, -⟩ := entryAt_route hl'
    split at h
    · next content time hget =>
      split at h
      · cases h
      · next hany =>
        obtain rfl : t.relocate (location p) (location q) (.file content time) = t' := Option.some.inj h
        have hfree : ¬t.IsDirectory (location q) := by
          rintro ⟨time', htime'⟩
          simp [htime', FileNode.isDirectory] at hany
        have hkept (k : Location) (hp : k ≠ location p) (hq : k ≠ location q) : KeptAt []
            ((location p).dropLast :: ancestors q) t (t.relocate (location p) (location q) (.file content time)) k :=
          relocate_kept (dropLast_location_mem hroute hup) hp hq
        have hdirs (k : Location) (hk : t.IsDirectory k) :
            (t.relocate (location p) (location q) (.file content time)).IsDirectory k := by
          refine (hkept k ?_ fun h => hfree (h ▸ hk)).directory hk
          rintro rfl
          obtain ⟨time', htime'⟩ := hk
          exact nomatch htime'.symm.trans hget
        have hnew : (t.relocate (location p) (location q) (.file content time)).get? (location q) =
            some (.file content time) := get?_enter_self hout
        exact {
          named := ⟨way, name, hroute, hup⟩
          node := ⟨content, time, node?_eq_some.2 ⟨hl, hget⟩,
            node?_eq_some.2 ⟨resolve_of_entryAt hdirs hl' (by simp [hnew]), hnew⟩⟩
          free := hfree
          gone := get?_relocate_old (not_isWayOut_of_file hget)
          kept := hkept }
    · cases h
  · cases h

theorem Moved.frames (h : Moved p q t t') (hp : location p ∈ changed) (hpmade : location p ∈ made)
    (hq : location q ∈ changed) (hqmade : location q ∈ made) : Frames changed made t t' := by
  obtain ⟨content, time, hold, -⟩ := h.node
  have hfile : ¬t.IsDirectory (location p) := by simp [IsDirectory, (node?_eq_some.1 hold).2]
  have hkept (l : Location) (hl : l ∉ [location p, location q]) :
      KeptAt [] ((location p).dropLast :: ancestors q) t t' l := by
    simp only [List.mem_cons, List.not_mem_nil, or_false, not_or] at hl
    exact h.kept l hl.1 hl.2
  refine frames_of_keptAt _ hkept (fun l hl => ?_) (List.nil_subset _)
  simp only [List.mem_cons, List.not_mem_nil, or_false] at hl
  obtain hl | hl := hl <;> rw [hl]
  · exact ⟨hfile, hp, hpmade⟩
  · exact ⟨h.free, hq, hqmade⟩

section Computations

open FileStore

variable {α β : Type} {x : StateM FileTree α} {f : α → StateM FileTree β} {content : String}

def Prepares (way : List Location) (x : StateM FileTree α) : Prop := ∀ t l, KeptAt way way t (x.run t).2 l

theorem Prepares.pure (way : List Location) (a : α) : Prepares way (pure a : StateM FileTree α) :=
  fun _ _ => .same rfl

theorem Prepares.bind {way : List Location} (hx : Prepares way x) (hf : ∀ a, Prepares way (f a)) :
    Prepares way (x >>= f) :=
  fun t l => (hx t l).trans (hf (x.run t).1 (x.run t).2 l)

theorem prepares_isDirectory (way : List Location) (p : Path) : Prepares way (FileStore.isDirectory p) :=
  fun _ _ => .same rfl

theorem prepares_makeDirectory {way : List Location} (hway : places p ⊆ way) :
    Prepares way (FileStore.makeDirectory p) := by
  intro t l
  cases h : t.makeDirectory p with
  | error e => exact .same (by simp [FileStore.makeDirectory, StateT.run, h])
  | ok t' => simpa [FileStore.makeDirectory, StateT.run, h] using (makeDirectory_kept h l).mono hway hway

theorem prepares_makeDirectories {way : List Location} (fuel : Nat) (hway : places p ⊆ way) :
    Prepares way (makeDirectories fuel p) := by
  induction fuel using Nat.strongRecOn generalizing p with
  | ind fuel ih =>
    unfold makeDirectories
    split
    · exact .pure _ true
    · refine (prepares_makeDirectory hway).bind fun result => ?_
      split
      · exact .pure _ true
      · exact prepares_isDirectory _ _
      · split
        · next above parent hparent =>
          -- the directory above is on the same way, so the induction on the fuel applies to it
          have hparent : places parent ⊆ way := fun l hl => hway (ancestors_subset p (places_parent hparent ▸ hl))
          refine (ih above (by omega) hparent).bind fun done => ?_
          split
          · refine (prepares_makeDirectory hway).bind fun again => ?_
            split
            · exact .pure _ true
            · exact prepares_isDirectory _ _
          · exact .pure _ false
        · exact .pure _ false

def rewritten (p : Path) : List Location := [location (stagingPath p), location p]

def prepared (p : Path) : List Location := location (stagingPath p) :: places p

theorem perform_writeText {ε : Type} (p : Path) (content : String) (t : FileTree) :
    perform (liftM (FileStore.writeText p content : StateM FileTree _) : ExceptT ε _ _) t =
      (.ok (t.writeText p content).isSome, (t.writeText p content).getD t) := by
  cases h : t.writeText p content <;> simp [FileStore.writeText, attempt, StateT.run, h]

theorem perform_rename {ε : Type} (p q : Path) (t : FileTree) :
    perform (liftM (FileStore.rename p q : StateM FileTree _) : ExceptT ε _ _) t =
      (.ok (t.rename p q).isSome, (t.rename p q).getD t) := by
  cases h : t.rename p q <;> simp [FileStore.rename, attempt, StateT.run, h]

theorem perform_moveText_of_none (h : t.writeText (stagingPath p) content = none) :
    perform (moveText p content) t = (.error (.staging (stagingPath p)), t) := by
  rw [moveText, perform_bind_of_ok (perform_writeText _ _ t), perform_unless, h]
  rfl

theorem perform_moveText_of_some (h : t.writeText (stagingPath p) content = some t') :
    perform (moveText p content) t =
      (outcome (if (t'.rename (stagingPath p) p).isSome then none else some (.move p)) (),
        (t'.rename (stagingPath p) p).getD t') := by
  rw [moveText, perform_bind_of_ok (perform_writeText _ _ t), perform_unless, h]
  change perform (liftM (FileStore.rename (stagingPath p) p : StateM FileTree _) >>= _) t' = _
  rw [perform_bind_of_ok (perform_rename _ _ t')]
  cases (t'.rename (stagingPath p) p).isSome <;> rfl

theorem perform_readText {ε : Type} (p : Path) (t : FileTree) :
    perform (liftM (readText p : StateM FileTree _) : ExceptT ε _ _) t = (.ok (t.text? p), t) := by
  rw [perform_lift]
  cases h : t.node? p with
  | none => simp [readText, StateT.run, text?, h]
  | some n => cases n <;> simp [readText, StateT.run, text?, h]

theorem updateText_of_text? (h : t.text? p = some content) :
    perform (updateText p content) t = (.ok .unchanged, t) := by
  rw [updateText, perform_bind_of_ok (perform_readText p t), if_pos h]
  rfl

/-- How the update of a file ends, and the tree after it. Directories are made on the way of the file, then it is
staged, and then it is moved into place. -/
inductive UpdateEnds (p : Path) (content : String) (t : FileTree) : Except WriteError WriteOutcome → FileTree → Prop
  | unchanged (h : t.text? p = some content) : UpdateEnds p content t (.ok .unchanged) t
  | noDirectory {parent : Path} {t' : FileTree} (h : t.text? p ≠ some content) (hparent : Path.parent? p = some parent)
      (hmade : ∀ l, KeptAt (ancestors p) (ancestors p) t t' l) : UpdateEnds p content t (.error (.directory parent)) t'
  | notStaged {t' : FileTree} (h : t.text? p ≠ some content) (hmade : ∀ l, KeptAt (ancestors p) (ancestors p) t t' l)
      (hstaged : t'.writeText (stagingPath p) content = none) :
      UpdateEnds p content t (.error (.staging (stagingPath p))) t'
  | notMoved {t₁ t' : FileTree} (h : t.text? p ≠ some content) (hmade : ∀ l, KeptAt (ancestors p) (ancestors p) t t₁ l)
      (hstaged : Wrote (stagingPath p) content t₁ t') (hmoved : t'.rename (stagingPath p) p = none) :
      UpdateEnds p content t (.error (.move p)) t'
  | written {t₁ t₂ t' : FileTree} (h : t.text? p ≠ some content)
      (hmade : ∀ l, KeptAt (ancestors p) (ancestors p) t t₁ l) (hstaged : Wrote (stagingPath p) content t₁ t₂)
      (hmoved : Moved (stagingPath p) p t₂ t') : UpdateEnds p content t (.ok .written) t'

theorem perform_updateText_of_ne (h : t.text? p ≠ some content) : perform (updateText p content) t =
    perform (replaceText p content >>= fun _ => pure .written) t := by
  rw [updateText, perform_bind_of_ok (perform_readText p t), if_neg h]

theorem replaceText_cases (p : Path) (content : String) (t : FileTree) : ∃ t₁,
    (∀ l, KeptAt (ancestors p) (ancestors p) t t₁ l) ∧
      (perform (replaceText p content) t = perform (moveText p content) t₁ ∨
        ∃ parent, Path.parent? p = some parent ∧
          perform (replaceText p content) t = (.error (.directory parent), t₁)) := by
  cases hparent : Path.parent? p with
  | none =>
    refine ⟨t, fun _ => .same rfl, .inl ?_⟩
    simp only [replaceText, hparent]
  | some parent =>
    have hway : places parent ⊆ ancestors p := by simp [places_parent hparent]
    have hmade := prepares_makeDirectories parent.length hway t
    refine ⟨_, hmade, ?_⟩
    simp only [replaceText, hparent]
    rw [perform_bind_of_ok (perform_lift _ t), perform_unless]
    cases hdone : ((makeDirectories parent.length parent : StateM FileTree Bool).run t).1 with
    | true => exact .inl rfl
    | false => exact .inr ⟨parent, rfl, rfl⟩

theorem updateText_ends {result : Except WriteError WriteOutcome}
    (h : perform (updateText p content) t = (result, t')) : UpdateEnds p content t result t' := by
  by_cases htext : t.text? p = some content
  · rw [updateText_of_text? htext] at h
    cases h
    exact .unchanged htext
  rw [perform_updateText_of_ne htext] at h
  obtain ⟨t₁, hmade, hmove | ⟨parent, hparent, hfail⟩⟩ := replaceText_cases p content t
  · cases hstaged : t₁.writeText (stagingPath p) content with
    | none =>
      rw [perform_bind_of_error (hmove.trans (perform_moveText_of_none hstaged))] at h
      cases h
      exact .notStaged htext hmade hstaged
    | some t₂ =>
      rw [perform_moveText_of_some hstaged] at hmove
      cases hmoved : t₂.rename (stagingPath p) p with
      | none =>
        rw [hmoved] at hmove
        rw [perform_bind_of_error hmove] at h
        cases h
        exact .notMoved htext hmade (wrote_of_writeText hstaged) hmoved
      | some t₃ =>
        rw [hmoved] at hmove
        rw [perform_bind_of_ok hmove] at h
        cases h
        exact .written htext hmade (wrote_of_writeText hstaged) (moved_of_rename hmoved)
  · rw [perform_bind_of_error hfail] at h
    cases h
    exact .noDirectory htext hparent hmade

theorem updateText_eq_ok {outcome : WriteOutcome} (h : perform (updateText p content) t = (.ok outcome, t')) :
    Frames (rewritten p) (prepared p) t t' ∧ t'.text? p = some content := by
  cases updateText_ends h with
  | unchanged htext => exact ⟨.refl _ _ _, htext⟩
  | @written t₁ t₂ _ _ hmade hstaged hmoved =>
    have hstaging : location (stagingPath p) ∈ rewritten p := by simp [rewritten]
    have hstaging' : location (stagingPath p) ∈ prepared p := by simp [prepared]
    have hplace : location p ∈ rewritten p := by simp [rewritten]
    have hplace' : location p ∈ prepared p := List.mem_cons_of_mem _ (location_mem_places p)
    have hprepared : Frames (rewritten p) (prepared p) t t₁ :=
      frames_of_keptAt [] (fun l _ => hmade l) (fun _ h => absurd h List.not_mem_nil)
        fun l hl => List.mem_cons_of_mem _ (ancestors_subset p hl)
    obtain ⟨content', time, hold, hnew⟩ := hmoved.node
    obtain ⟨rfl, rfl⟩ := FileNode.file.inj (Option.some.inj (hstaged.node.symm.trans hold))
    exact ⟨(hprepared.trans (hstaged.frames hstaging hstaging')).trans
      (hmoved.frames hstaging hstaging' hplace hplace'), text?_eq_some.2 ⟨_, hnew⟩⟩

end Computations

end FileTree

end Stencil
