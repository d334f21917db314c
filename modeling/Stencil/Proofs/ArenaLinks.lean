import Stencil.Proofs.Linking
import Stencil.Table.Arena

/-! The two phases of linking an arena: all names are looked up, and then the references are changed link by link.
Main statement: as long as the handles suffice, this is what linking does to the plain table. -/
namespace Stencil

section Names

def addName (names : List String) (r : Ref) : List String :=
  if r.handle.isNone && !names.contains r.name then names ++ [r.name] else names

mutual
theorem TypeExpr.collect_eq : (t : TypeExpr) → (names : List String) → t.collect names = t.refs.foldl addName names
  | .primitive _, _ => rfl
  | .named _, _ => rfl
  | .vector t, names => by rw [TypeExpr.collect, TypeExpr.refs, t.collect_eq]
  | .function result params, names => by
    rw [TypeExpr.collect, TypeExpr.refs, List.foldl_append, TypeExpr.collectResult_eq result,
      TypeExpr.collectParams_eq params]

theorem TypeExpr.collectResult_eq : (result : Option TypeExpr) → (names : List String) →
    TypeExpr.collectResult result names = (TypeExpr.resultRefs result).foldl addName names
  | none, _ => rfl
  | some t, names => by rw [TypeExpr.collectResult, TypeExpr.resultRefs, t.collect_eq]

theorem TypeExpr.collectParams_eq : (params : List TypeExpr) → (names : List String) →
    TypeExpr.collectParams params names = (TypeExpr.paramRefs params).foldl addName names
  | [], _ => rfl
  | t :: ts, names => by
    rw [TypeExpr.collectParams, TypeExpr.paramRefs, List.foldl_append, t.collect_eq, TypeExpr.collectParams_eq ts]
end

theorem Declaration.unlinkedNames_eq (d : Declaration) : d.unlinkedNames = d.walkRefs.foldl addName [] := by
  have hcollect : (fun names t => TypeExpr.collect t names) = fun names t => t.refs.foldl addName names := by
    funext names t
    exact t.collect_eq names
  rw [unlinkedNames, hcollect, walkRefs, List.foldl_flatMap]

theorem mem_addName {names : List String} {r : Ref} {n : String} :
    n ∈ addName names r ↔ n ∈ names ∨ r.handle = none ∧ r.name = n := by
  unfold addName
  by_cases hr : r.handle = none
  · by_cases hmem : r.name ∈ names
    · simp only [hr, Option.isNone_none, List.contains_eq_mem, hmem, decide_true, Bool.not_true, Bool.and_false,
        Bool.false_eq_true, if_false, true_and]
      exact ⟨.inl, fun h => h.elim id fun hn => hn ▸ hmem⟩
    · simp [hr, hmem, eq_comm]
  · simp [hr]

theorem mem_foldl_addName (rs : List Ref) (names : List String) (n : String) :
    n ∈ rs.foldl addName names ↔ n ∈ names ∨ ∃ r ∈ rs, r.handle = none ∧ r.name = n := by
  induction rs generalizing names with
  | nil => simp
  | cons r rs ih =>
    rw [List.foldl_cons, ih, mem_addName, List.exists_mem_cons_iff, or_assoc]

/-- A name that was met before has been asked for before. -/
theorem findSome?_foldl_addName {β : Type} (p : String → Option β) (rs : List Ref) (names : List String) :
    (rs.foldl addName names).findSome? p =
      (names.findSome? p).or (rs.findSome? fun r => if r.handle.isNone then p r.name else none) := by
  induction rs generalizing names with
  | nil => simp
  | cons r rs ih =>
    have hadd : (addName names r).findSome? p =
        (names.findSome? p).or (if r.handle.isNone then p r.name else none) := by
      cases hr : r.handle with
      | some h => simp [addName, hr]
      | none =>
        by_cases hmem : r.name ∈ names
        · cases hp : p r.name with
          | none => simp [addName, hr, hmem]
          | some b =>
            have hsome : (names.findSome? p).isSome = true :=
              List.findSome?_isSome_iff.2 ⟨r.name, hmem, by rw [hp]; rfl⟩
            obtain ⟨c, hc⟩ := Option.isSome_iff_exists.1 hsome
            simp [addName, hmem, hc]
        · simp [addName, hr, hmem, List.findSome?_append]
    rw [List.foldl_cons, ih, hadd, Option.or_assoc, List.findSome?_cons]
    cases (if r.handle.isNone then p r.name else none) <;> rfl

theorem Declaration.findSome?_unlinkedNames {β : Type} (p : String → Option β) (d : Declaration) :
    d.unlinkedNames.findSome? p = d.walkRefs.findSome? fun r => if r.handle.isNone then p r.name else none := by
  rw [d.unlinkedNames_eq, findSome?_foldl_addName]
  rfl

theorem Declaration.mem_unlinkedNames {d : Declaration} {r : Ref} (hr : r ∈ d.walkRefs) (hnone : r.handle = none) :
    r.name ∈ d.unlinkedNames := by
  rw [d.unlinkedNames_eq, mem_foldl_addName]
  exact .inr ⟨r, hr, hnone, rfl⟩

end Names

theorem NameMap.lookup_alter {α : Type} (m : NameMap α) (name : String) (f : Option α → α) (n : String) :
    (m.alter name f).lookup n = if n = name then some (f (m.lookup name)) else m.lookup n := by
  induction m with
  | nil =>
    by_cases hn : n = name
    · simp [alter, hn]
    · simp [alter, List.lookup_cons, beq_false_of_ne hn, hn]
  | cons entry m ih =>
    obtain ⟨key, value⟩ := entry
    by_cases hkey : key = name
    · by_cases hn : n = name
      · simp [alter, hkey, hn]
      · simp [alter, List.lookup_cons, hkey, beq_false_of_ne hn, hn]
    · have hlookup : List.lookup name ((key, value) :: m) = m.lookup name := by
        simp [List.lookup_cons, beq_false_of_ne (Ne.symm hkey)]
      rw [alter, if_neg hkey, hlookup, List.lookup_cons, List.lookup_cons, ih]
      by_cases hn : n = key
      · simp [hn, hkey]
      · simp [beq_false_of_ne hn]

namespace Arena

variable {a : Arena}

/-- The index holds the declarations' names with their handles, in the order of the declarations. -/
def InStep (a : Arena) : Prop := a.byName = a.entries.map fun entry => (entry.2.qualifiedName, entry.1)

theorem InStep.lookup?_eq (ha : a.InStep) (n : String) :
    a.lookup? n = (a.entries.find? (·.2.qualifiedName == n)).map Prod.fst := by
  rw [lookup?, ha]
  induction a.entries with
  | nil => rfl
  | cons entry entries ih =>
    rw [List.map_cons, List.lookup_cons, List.find?_cons]
    by_cases hn : entry.2.qualifiedName = n
    · simp [hn]
    · simpa [beq_false_of_ne hn, beq_false_of_ne (Ne.symm hn)] using ih

theorem lookup_simpleNames (a : Arena) (n : String) : a.simpleNames.lookup n =
    if (a.named n).isEmpty then none else some ((a.named n).map Prod.fst) := by
  have hgroup (entries : List (Handle × Declaration)) (names : NameMap (List Handle)) :
      (entries.foldl (fun names entry => names.alter entry.2.name fun hs => hs.getD [] ++ [entry.1]) names).lookup n =
        if (entries.filter (·.2.name == n)).isEmpty then names.lookup n
        else some ((names.lookup n).getD [] ++ (entries.filter (·.2.name == n)).map Prod.fst) := by
    induction entries generalizing names with
    | nil => rfl
    | cons entry entries ih =>
      rw [List.foldl_cons, ih, NameMap.lookup_alter]
      by_cases hn : entry.2.name = n
      · rw [List.filter_cons_of_pos (by simp [hn])]
        cases hrest : entries.filter (·.2.name == n) <;> simp [hn]
      · rw [List.filter_cons_of_neg (by simp [hn])]
        simp [Ne.symm hn]
  exact hgroup a.entries []

theorem get?_of_mem_entries (hsize : a.size ≤ UInt32.size) {entry : Handle × Declaration} (h : entry ∈ a.entries) :
    a.get? entry.1 = some entry.2 := by
  obtain ⟨i, hi⟩ := List.getElem?_of_mem h
  rw [Table.entries_getElem?, Option.map_eq_some_iff] at hi
  obtain ⟨d, hd, rfl⟩ := hi
  have hlt : i < UInt32.size := Nat.lt_of_lt_of_le (List.getElem?_eq_some_iff.1 hd).1 hsize
  exact (a.toTable.get?_handleAt_of_lt hlt).trans hd

theorem filterMap_get?_named (hsize : a.size ≤ UInt32.size) (n : String) :
    ((a.toTable.named n).map Prod.fst).filterMap a.get? = (a.toTable.named n).map Prod.snd := by
  have hget : ∀ entry ∈ a.toTable.named n, a.get? entry.1 = some entry.2 :=
    fun entry h => get?_of_mem_entries hsize (List.mem_filter.1 h).1
  rw [List.filterMap_map, ← List.filterMap_eq_map]
  exact List.filterMap_congr hget

/-- An arena finds what the table finds, and fails where the table fails; for the text of the error the handles
of all declarations are needed. -/
theorem InStep.resolve_eq (ha : a.InStep) (n : String) :
    (∃ found, a.toTable.resolve n = .ok found ∧ a.resolve a.simpleNames n = .ok (found.map Prod.fst)) ∨
      ∃ e e', a.toTable.resolve n = .error e ∧ a.resolve a.simpleNames n = .error e' ∧
        (a.size ≤ UInt32.size → e' = e) := by
  have hlookup := ha.lookup?_eq n
  have hsimple := a.lookup_simpleNames n
  unfold resolve Table.resolve
  rw [hlookup, hsimple]
  cases a.entries.find? (·.2.qualifiedName == n) with
  | some entry => exact .inl ⟨_, rfl, rfl⟩
  | none =>
    have hnames := fun hsize => filterMap_get?_named (a := a) hsize n
    generalize a.named n = entries at hnames
    cases entries with
    | nil => exact .inl ⟨_, rfl, rfl⟩
    | cons first rest =>
      cases rest with
      | nil => exact .inl ⟨_, rfl, rfl⟩
      | cons second rest =>
        refine .inr ⟨_, _, rfl, rfl, fun hsize => ?_⟩
        rw [← List.map_cons, hnames hsize, List.map_map]
        rfl

def target? (a : Arena) (n : String) : Option Handle := (a.resolve a.simpleNames n).toOption.getD none

def error? (a : Arena) (n : String) : Option TableError := errorOf? (a.resolve a.simpleNames n)

theorem linksOf_outcome (a : Arena) (i : Nat) (d : Declaration) : a.linksOf a.simpleNames i d =
    outcome (d.unlinkedNames.findSome? a.error?)
      (d.unlinkedNames.filterMap fun n => (a.target? n).map (Link.mk i n)) := by
  have hfind : (fun n => do return (← a.resolve a.simpleNames n).map (Link.mk i n)) =
      fun n => outcome (a.error? n) ((a.target? n).map (Link.mk i n)) := by
    funext n
    cases hn : a.resolve a.simpleNames n <;> simp only [error?, target?, hn] <;> rfl
  rw [linksOf, hfind, mapM_outcome]
  simp only [outcome_pure, outcome_bind, Option.or_none, List.filterMap_map]
  rfl

def allLinks (a : Arena) : List Link := a.declarations.zipIdx.flatMap fun entry =>
  entry.1.unlinkedNames.filterMap fun n => (a.target? n).map (Link.mk entry.2 n)

def refError? (a : Arena) (r : Ref) : Option TableError := if r.handle.isNone then a.error? r.name else none

theorem links_outcome (a : Arena) : a.links = outcome (a.walkRefs.findSome? a.refError?) a.allLinks := by
  have hrefs : a.walkRefs.findSome? a.refError? =
      a.declarations.findSome? fun d => d.unlinkedNames.findSome? a.error? := by
    simp only [Declaration.findSome?_unlinkedNames, Table.walkRefs, findSome?_flatMap]
    rfl
  rw [hrefs]
  simp only [links, linksOf_outcome, mapM_outcome, outcome_pure, outcome_bind, Option.or_none]
  congr 1
  conv_rhs => rw [← List.zipIdx_map_fst 0 a.declarations, List.findSome?_map]
  rfl

theorem follow_applyLink (a : Arena) (l : Link) : (a.applyLink l).follow = a.follow := by
  funext k r
  have hname : ((a.applyLink l).get? k.handle).map Declaration.name = (a.get? k.handle).map Declaration.name := by
    simp only [applyLink, Table.get?, List.getElem?_modify, Option.map_eq_map, Option.map_map]
    congr 1
    funext d
    by_cases hpos : l.position = k.handle.index.toNat
    · simp only [hpos, if_true]
      rfl
    · simp only [hpos, if_false]
      rfl
  unfold follow
  cases h : a.get? k.handle with
  | none =>
    rw [h, Option.map_none, Option.map_eq_none_iff] at hname
    rw [hname]
  | some target =>
    rw [h, Option.map_some, Option.map_eq_some_iff] at hname
    obtain ⟨target', h', hname⟩ := hname
    simp only [h', hname]

theorem applyLinks_getElem? (links : List Link) (a : Arena) (j : Nat) :
    (links.foldl applyLink a).declarations[j]? = a.declarations[j]?.map
      (·.mapRefs fun r => (links.filter (·.position == j)).foldl (fun r l => a.follow l r) r) := by
  induction links generalizing a with
  | nil =>
    have hid : (fun d : Declaration => d.mapRefs fun r => r) = id := funext Declaration.mapRefs_id
    exact (congrFun (congrArg Option.map hid) _ ▸ (Option.map_id' ..).symm)
  | cons l links ih =>
    rw [List.foldl_cons, ih, follow_applyLink]
    simp only [applyLink, List.getElem?_modify]
    by_cases hpos : l.position = j
    · simp [hpos, Declaration.mapRefs_mapRefs, Function.comp_def]
    · simp [hpos]

theorem follow_of_linked {r : Ref} (hr : r.handle.isSome = true) (l : Link) : a.follow l r = r := by
  obtain ⟨h, hh⟩ := Option.isSome_iff_exists.1 hr
  unfold follow
  cases a.get? l.handle <;> simp [hh]

theorem foldl_follow_of_linked {r : Ref} (hr : r.handle.isSome = true) (links : List Link) :
    links.foldl (fun r l => a.follow l r) r = r := by
  induction links with
  | nil => rfl
  | cons l links ih => rw [List.foldl_cons, follow_of_linked hr, ih]

def settled (a : Arena) (r : Ref) : Ref := ((a.target? r.name).map fun h => a.follow ⟨0, r.name, h⟩ r).getD r

/-- The first link of its name settles a reference. It has a handle then, so its new name is not taken for one that
is still to be linked. -/
theorem foldl_follow {r : Ref} (hr : r.handle = none) (names : List String) (j : Nat) :
    (names.filterMap fun n => (a.target? n).map (Link.mk j n)).foldl (fun r l => a.follow l r) r =
      if r.name ∈ names then a.settled r else r := by
  induction names with
  | nil => rfl
  | cons n names ih =>
    by_cases hn : r.name = n
    · subst hn
      cases htarget : a.target? r.name with
      | none =>
        have hsettled : a.settled r = r := by rw [settled, htarget]; rfl
        simpa [htarget, hsettled] using ih
      | some h =>
        have hsettled : a.settled r = a.follow ⟨j, r.name, h⟩ r := by rw [settled, htarget]; rfl
        cases hget : a.get? h with
        | none =>
          have hkept : a.follow ⟨j, r.name, h⟩ r = r := by simp [follow, hget]
          simpa [htarget, hsettled, hkept] using ih
        | some d =>
          have hlinked : a.follow ⟨j, r.name, h⟩ r = ⟨d.name, some h⟩ := by simp [follow, hget, hr]
          simp only [List.filterMap_cons, htarget, Option.map_some, List.foldl_cons, hsettled, hlinked]
          rw [foldl_follow_of_linked rfl]
          simp
    · have hskip (h : Handle) : a.follow ⟨j, n, h⟩ r = r := by
        unfold follow
        cases a.get? h <;> simp [hn]
      cases htarget : a.target? n with
      | none => simpa [htarget, hn] using ih
      | some h => simpa [htarget, hn, hskip] using ih

theorem filter_flatMap_zipIdx {g : Declaration → Nat → List Link} (hg : ∀ d i, ∀ l ∈ g d i, l.position = i)
    {ds : List Declaration} {d : Declaration} {j : Nat} (hd : ds[j]? = some d) (k : Nat) :
    ((ds.zipIdx k).flatMap fun entry => g entry.1 entry.2).filter (·.position == k + j) = g d (k + j) := by
  have hkept (d : Declaration) (i : Nat) : (g d i).filter (·.position == i) = g d i :=
    List.filter_eq_self.2 fun l hl => by simp [hg d i l hl]
  have hdropped (d : Declaration) {i j : Nat} (hij : i ≠ j) : (g d i).filter (·.position == j) = [] :=
    List.filter_eq_nil_iff.2 fun l hl => by simpa [hg d i l hl] using hij
  induction ds generalizing j k with
  | nil => simp at hd
  | cons e ds ih =>
    rw [List.zipIdx_cons, List.flatMap_cons, List.filter_append]
    cases j with
    | zero =>
      obtain rfl : e = d := by simpa using hd
      have hrest : ((ds.zipIdx (k + 1)).flatMap fun entry => g entry.1 entry.2).filter (·.position == k) = [] := by
        refine List.filter_eq_nil_iff.2 fun l hl => ?_
        obtain ⟨entry, hentry, hl⟩ := List.mem_flatMap.1 hl
        have hle := (List.mem_zipIdx hentry).1
        rw [hg _ _ l hl, beq_iff_eq]
        omega
      rw [Nat.add_zero, hkept, hrest, List.append_nil]
    | succ j =>
      rw [hdropped e (by omega), List.nil_append, show k + (j + 1) = k + 1 + j by omega]
      exact ih (by simpa using hd) (k + 1)

theorem filter_allLinks {d : Declaration} {j : Nat} (hd : a.declarations[j]? = some d) :
    a.allLinks.filter (·.position == j) = d.unlinkedNames.filterMap fun n => (a.target? n).map (Link.mk j n) := by
  have hposition (d : Declaration) (i : Nat) :
      ∀ l ∈ d.unlinkedNames.filterMap fun n => (a.target? n).map (Link.mk i n), l.position = i := by
    intro l hl
    obtain ⟨n, -, hn⟩ := List.mem_filterMap.1 hl
    obtain ⟨h, -, rfl⟩ := Option.map_eq_some_iff.1 hn
    rfl
  simpa [allLinks] using filter_flatMap_zipIdx hposition hd 0

theorem byName_applyLinks (links : List Link) (a : Arena) : (links.foldl applyLink a).byName = a.byName := by
  induction links generalizing a with
  | nil => rfl
  | cons l links ih => exact ih (a.applyLink l)

def relink (a : Arena) (r : Ref) : Ref := if r.handle.isNone then a.settled r else r

def relinked (a : Arena) : Arena := { a with declarations := a.declarations.map (·.mapRefs a.relink) }

theorem applyLinks_eq (a : Arena) : a.allLinks.foldl applyLink a = a.relinked := by
  have hdecls : (a.allLinks.foldl applyLink a).declarations = a.declarations.map (·.mapRefs a.relink) := by
    refine List.ext_getElem? fun j => ?_
    rw [applyLinks_getElem?, List.getElem?_map]
    cases hd : a.declarations[j]? with
    | none => rfl
    | some d =>
      rw [Option.map_some, Option.map_some, filter_allLinks hd]
      congr 1
      refine Declaration.mapRefs_congr fun r hr => ?_
      cases hnone : r.handle with
      | some h => rw [foldl_follow_of_linked (by rw [hnone]; rfl), relink, hnone]; rfl
      | none => rw [foldl_follow hnone, if_pos (Declaration.mem_unlinkedNames hr hnone), relink, hnone]; rfl
  have hindex := byName_applyLinks a.allLinks a
  generalize a.allLinks.foldl applyLink a = b at hdecls hindex
  obtain ⟨⟨decls⟩, byName⟩ := b
  subst hdecls hindex
  rfl

theorem perform_applyLinks (links : List Link) (a : Arena) :
    perform (applyLinks (.ok links)) a = (.ok (), links.foldl applyLink a) := by
  induction links generalizing a with
  | nil => rfl
  | cons l links ih => exact ih (a.applyLink l)

/-- The first error is met before anything is changed. -/
theorem perform_link (a : Arena) :
    (∃ e, a.walkRefs.findSome? a.refError? = some e ∧ perform link a = (.error e, a)) ∨
      a.walkRefs.findSome? a.refError? = none ∧ perform link a = (.ok (), a.relinked) := by
  have hlink : perform link a = perform (applyLinks a.links) a := rfl
  rw [hlink, a.links_outcome]
  cases a.walkRefs.findSome? a.refError? with
  | some e => exact .inl ⟨e, rfl, rfl⟩
  | none => exact .inr ⟨rfl, (perform_applyLinks a.allLinks a).trans (congrArg _ a.applyLinks_eq)⟩

theorem InStep.refError?_eq (ha : a.InStep) (r : Ref) :
    (a.refError? r).isSome = (errorOf? (a.toTable.linkRef r)).isSome ∧
      (a.size ≤ UInt32.size → a.refError? r = errorOf? (a.toTable.linkRef r)) := by
  cases hr : r.handle with
  | some h => simp [refError?, Table.linkRef, hr, errorOf?]
  | none =>
    obtain ⟨found, htable, harena⟩ | ⟨e, e', htable, harena, he⟩ := ha.resolve_eq r.name
    · cases found <;> simp [refError?, error?, Table.linkRef, hr, htable, harena, errorOf?, bind, Except.bind,
        pure, Except.pure]
    · simpa [refError?, error?, Table.linkRef, hr, htable, harena, errorOf?, bind, Except.bind] using he

section Refinement

variable (ha : a.InStep) (hsize : a.size ≤ UInt32.size)

include ha hsize

theorem InStep.relink_eq (r : Ref) : a.relink r = (a.toTable.linkRef r).toOption.getD r := by
  cases hr : r.handle with
  | some h => simp [relink, Table.linkRef, hr, Except.toOption]
  | none =>
    obtain ⟨found, htable, harena⟩ | ⟨e, e', htable, harena, -⟩ := ha.resolve_eq r.name
    · cases found with
      | none =>
        simp [relink, settled, target?, Table.linkRef, hr, htable, harena, bind, Except.bind, pure, Except.pure,
          Except.toOption]
      | some entry =>
        have hans := htable ▸ a.toTable.resolve_answers r.name
        obtain ⟨i, hi, hres⟩ := hans
        have hd := hres.getElem?
        have hlt : i < UInt32.size := Nat.lt_of_lt_of_le (List.getElem?_eq_some_iff.1 hd).1 hsize
        have hget : a.get? entry.1 = some entry.2 := by rw [hi, a.toTable.get?_handleAt_of_lt hlt, hd]
        simp [relink, settled, follow, target?, Table.linkRef, hr, htable, harena, hget, bind, Except.bind, pure,
          Except.pure, Except.toOption]
    · simp [relink, settled, target?, Table.linkRef, hr, htable, harena, bind, Except.bind, Except.toOption]

/-- Linking an arena is linking its table; if it fails, the arena is as it was. -/
theorem InStep.link_refines : perform link a =
    (a.toTable.link.map fun _ => (), { a with toTable := a.toTable.link.toOption.getD a.toTable }) := by
  have herror : a.refError? = fun r => errorOf? (a.toTable.linkRef r) := funext fun r => (ha.refError?_eq r).2 hsize
  have hrelink : a.relink = fun r => (a.toTable.linkRef r).toOption.getD r := funext (ha.relink_eq hsize)
  rw [a.toTable.link_outcome, ← herror, ← hrelink]
  obtain ⟨e, he, hlink⟩ | ⟨hnone, hlink⟩ := a.perform_link
  · rw [hlink, he]
    rfl
  · rw [hlink, hnone]
    rfl

end Refinement

end Arena

end Stencil
