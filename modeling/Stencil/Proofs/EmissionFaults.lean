import Stencil.Emission.Basic
import Stencil.Proofs.ConstructorBlocks
import Stencil.Proofs.DelegationMarkers
import Stencil.Proofs.ImportedPackages
import Mathlib.Data.List.Nodup

/-! What stops the emission of a table, and what the lints say about it. The emission looks for faults on its own and
stops at the first; the lints report all that they find. Main statement: the emission fails exactly if one of three lints
has a finding or a constructor begins with an unknown marker, and then with the first fault of the first such
declaration. -/
namespace Stencil

def FirstIn {α : Type} (xs : List α) (P : α → Prop) (x : α) : Prop :=
  ∃ before after, xs = before ++ x :: after ∧ P x ∧ ∀ y ∈ before, ¬P y

theorem findSome?_eq_some_iff_firstIn {α β : Type} {f : α → Option β} {P : α → Prop} (hP : ∀ x, P x ↔ f x ≠ none)
    {xs : List α} {b : β} : xs.findSome? f = some b ↔ ∃ x, FirstIn xs P x ∧ f x = some b := by
  rw [List.findSome?_eq_some_iff]
  constructor
  · intro h
    obtain ⟨before, x, after, hxs, hx, hbefore⟩ := h
    refine ⟨x, ⟨before, after, hxs, ?_, ?_⟩, hx⟩
    · simp [hP, hx]
    · intro y hy
      simp [hP, hbefore y hy]
  · intro h
    obtain ⟨x, ⟨before, after, hxs, -, hbefore⟩, hx⟩ := h
    refine ⟨before, x, after, hxs, hx, ?_⟩
    intro y hy
    simpa [hP] using hbefore y hy

theorem find?_eq_some_iff_firstIn {α : Type} {p : α → Bool} {xs : List α} {x : α} :
    xs.find? p = some x ↔ FirstIn xs (p · = true) x := by
  rw [List.find?_eq_some_iff_append]
  constructor
  · intro h
    obtain ⟨hx, before, after, hxs, hbefore⟩ := h
    exact ⟨before, after, hxs, hx, by simpa using hbefore⟩
  · intro h
    obtain ⟨before, after, hxs, hx, hbefore⟩ := h
    exact ⟨hx, before, after, hxs, by simpa using hbefore⟩

def Ref.Dangles (t : Table) (r : Ref) (h : Handle) : Prop := r.handle = some h ∧ t.get? h = none

theorem Ref.dangling?_eq_some_iff {t : Table} {r : Ref} {h : Handle} :
    Lint.dangling? t r = some h ↔ r.Dangles t h := by
  simp [Lint.dangling?, Ref.Dangles, Option.filter_eq_some_iff]

def Method.StartsUnknown (m : Method) (line : List Char) : Prop :=
  m.isConstructor = true ∧ Delegation.UnknownMarker line ∧
    ∃ x, m.body.lines.find? (!·.isBlank) = some x ∧ Text.trim x.text.toList = line

namespace Lint

def blocking : List Lint := [unresolvedTypes, interfaceFields, accessorConstructor]

def severity (lint : Lint) : Severity := if lint.name = interfaceBodies.name then .warning else .error

end Lint

namespace Declaration

def reports (t : Table) (d : Declaration) (lint : Lint) : List Diagnostic :=
  (Lint.builtin.flatMap fun l => l.check t d).filter (·.lint = lint.name)

def StartsUnknown (d : Declaration) : Prop :=
  d.isInterface = false ∧ ∃ m ∈ d.methods, ∃ line, m.StartsUnknown line

def Faultless (t : Table) (d : Declaration) : Prop :=
  (∀ lint ∈ Lint.blocking, d.reports t lint = []) ∧ ¬d.StartsUnknown

/-- The error with which the emission of a declaration stops. A fault of one kind is named only if there is none of
the kinds before it. -/
inductive Refused (t : Table) (d : Declaration) : EmitError → Prop
  | unresolvedType {site : Site} {r : Ref} {h : Handle}
      (hfirst : FirstIn d.siteRefs (fun (_, r) => ∃ h, r.Dangles t h) (site, r)) (hr : r.Dangles t h)
      (hreport : (d.reports t .unresolvedTypes).head? = some (d.danglingReport site r.name h)) :
      Refused t d (.unresolvedType d.qualifiedName site.memberLabel r.name h)
  | interfaceField {f : Field} (hrefs : d.reports t .unresolvedTypes = [])
      (hreport : d.reports t .interfaceFields ≠ []) (hf : d.fields.head? = some f) :
      Refused t d (.interfaceField d.qualifiedName f.name)
  | accessorConstructor {m : Method} (hrefs : d.reports t .unresolvedTypes = [])
      (hfields : d.reports t .interfaceFields = []) (hreport : d.reports t .accessorConstructor ≠ [])
      (hfirst : FirstIn d.methods (fun m => m.isConstructor = true ∧ m.isAccessor = true) m) :
      Refused t d (.accessorConstructor d.qualifiedName m.name)
  | unknownDelegation {m : Method} {line : List Char} (hreports : ∀ lint ∈ Lint.blocking, d.reports t lint = [])
      (hclass : d.isInterface = false) (hfirst : FirstIn d.methods (fun m => ∃ line, m.StartsUnknown line) m)
      (hline : m.StartsUnknown line) : Refused t d (.unknownDelegation d.qualifiedName (.ofList line))

section Reports

variable {t : Table} {d : Declaration}

theorem builtin_signed {l : Lint} (hl : l ∈ Lint.builtin) {x : Diagnostic} (hx : x ∈ l.check t d) :
    x.lint = l.name ∧ x.severity = l.severity := by
  simp only [Lint.builtin, List.mem_cons, List.not_mem_nil, or_false] at hl
  obtain rfl | rfl | rfl | rfl | rfl := hl
  · simp only [Lint.interfaceFields] at hx
    split at hx
    · obtain ⟨f, -, rfl⟩ := List.mem_map.1 hx
      exact ⟨rfl, rfl⟩
    · cases hx
  · simp only [Lint.interfaceBodies] at hx
    split at hx
    · obtain ⟨m, -, hm⟩ := List.mem_filterMap.1 hx
      obtain ⟨message, -, rfl⟩ := Option.map_eq_some_iff.1 hm
      exact ⟨rfl, rfl⟩
    · cases hx
  · obtain ⟨m, -, rfl⟩ := List.mem_map.1 hx
    exact ⟨rfl, rfl⟩
  · rw [unresolvedTypes_check_siteRefs] at hx
    obtain ⟨entry, -, hentry⟩ := List.mem_filterMap.1 hx
    obtain ⟨h, -, rfl⟩ := Option.map_eq_some_iff.1 hentry
    exact ⟨rfl, rfl⟩
  · obtain ⟨entry, -, rfl⟩ := List.mem_map.1 hx
    exact ⟨rfl, rfl⟩

theorem filter_flatMap_check {lints : List Lint} (hsigned : ∀ l ∈ lints, ∀ x ∈ l.check t d, x.lint = l.name)
    (hnames : (lints.map Lint.name).Nodup) {lint : Lint} (hmem : lint ∈ lints) :
    (lints.flatMap fun l => l.check t d).filter (·.lint = lint.name) = lint.check t d := by
  -- what stands before and after the lint has other names, so nothing of it passes the filter
  obtain ⟨before, after, rfl⟩ := List.append_of_mem hmem
  rw [List.map_append, List.map_cons, List.nodup_middle, List.nodup_cons, ← List.map_append] at hnames
  replace hnames := hnames.1
  have hothers (l : Lint) (hl : l ∈ before ++ after) :
      (l.check t d).filter (·.lint = lint.name) = [] := by
    rw [List.filter_eq_nil_iff]
    intro x hx
    have hname : lint.name ≠ l.name := by
      intro heq
      rw [heq] at hnames
      exact hnames (List.mem_map_of_mem hl)
    have hl' : l ∈ before ++ lint :: after := by
      rw [List.mem_append] at hl
      rw [List.mem_append, List.mem_cons]
      tauto
    simpa [hsigned l hl' x hx] using hname.symm
  have hbefore : (before.flatMap fun l => (l.check t d).filter (·.lint = lint.name)) = [] :=
    List.flatMap_eq_nil_iff.2 fun l hl => hothers l (List.mem_append_left _ hl)
  have hafter : (after.flatMap fun l => (l.check t d).filter (·.lint = lint.name)) = [] :=
    List.flatMap_eq_nil_iff.2 fun l hl => hothers l (List.mem_append_right _ hl)
  have hown : (lint.check t d).filter (·.lint = lint.name) = lint.check t d := by
    simpa [List.filter_eq_self] using hsigned lint hmem
  rw [List.filter_flatMap, List.flatMap_append, List.flatMap_cons, hbefore, hafter, hown, List.append_nil,
    List.nil_append]

theorem reports_eq {lint : Lint} (hmem : lint ∈ Lint.builtin) : d.reports t lint = lint.check t d :=
  filter_flatMap_check (fun _ hl _ hx => (builtin_signed hl hx).1) (by decide) hmem

theorem head?_reports_unresolvedTypes : (d.reports t .unresolvedTypes).head? =
    d.siteRefs.findSome? fun (site, r) => (Lint.dangling? t r).map (d.danglingReport site r.name) := by
  rw [reports_eq (by simp [Lint.builtin]), unresolvedTypes_check_siteRefs, List.head?_filterMap]

theorem reports_interfaceFields_eq_nil_iff :
    d.reports t .interfaceFields = [] ↔ (if d.isInterface then d.fields.head? else none) = none := by
  rw [reports_eq (by simp [Lint.builtin])]
  cases hd : d.isInterface with
  | false => simp [Lint.interfaceFields, hd]
  | true => simp [Lint.interfaceFields, hd]

theorem reports_accessorConstructor_eq_nil_iff : d.reports t .accessorConstructor = [] ↔
    d.methods.find? (fun m => m.isConstructor && m.isAccessor) = none := by
  rw [reports_eq (by simp [Lint.builtin])]
  simp [Lint.accessorConstructor]

end Reports

section Errors

variable {t : Table} {d : Declaration} {δ : Dialect} {e : EmitError}

theorem errorOf?_check : errorOf? d.check =
    ((if d.isInterface then d.fields.head? else none).map (.interfaceField d.qualifiedName ·.name)).or
      ((d.methods.find? fun m => m.isConstructor && m.isAccessor).map (.accessorConstructor d.qualifiedName ·.name)) := by
  rw [check]
  split
  · next f hf => simp [hf, errorOf?]
  · next hf =>
    split
    · next m hm => simp [hf, hm, errorOf?]
    · next hm => simp [hf, hm, errorOf?]

def delegationError? (d : Declaration) (m : Method) : Option EmitError :=
  if m.isConstructor then errorOf? (ConstructorBody.takeDelegation d.qualifiedName m.body.lines) else none

def markerError? (d : Declaration) : Option EmitError :=
  if d.isInterface then none else d.methods.findSome? d.delegationError?

theorem errorOf?_methodSection (m : Method) : errorOf? (d.methodSection δ m) = d.delegationError? m := by
  cases hm : m.isConstructor with
  | false => simp [methodSection, delegationError?, hm, pure, Except.pure, errorOf?]
  | true =>
    simp only [methodSection, delegationError?, hm, if_true]
    rw [errorOf?_bind_pure, ConstructorBody.ofListing_eq, errorOf?_map]

theorem errorOf?_writeType (l : Listing) : errorOf? (d.writeType δ l) = d.markerError? := by
  rw [writeType, markerError?]
  split
  · rfl
  · rw [writeClass, errorOf?_bind_pure, errorOf?_mapM]
    simp only [errorOf?_methodSection]

/-- The order of the checks: references, then the rules for members, then the bodies of constructors. -/
theorem errorOf?_render :
    errorOf? (d.render δ t) = (errorOf? (d.imports t)).or ((errorOf? d.check).or d.markerError?) := by
  -- each part fails or not whatever the parts before it have returned
  rw [render, errorOf?_bind]
  intro imports
  rw [writeFile, errorOf?_bind]
  intro _
  split
  · exact errorOf?_writeType _
  · rw [errorOf?_bind_pure, errorOf?_writeType]

theorem errorOf?_imports_eq_none_iff : errorOf? (d.imports t) = none ↔ d.reports t .unresolvedTypes = [] := by
  rw [imports_outcome, errorOf?_outcome, ← List.head?_eq_none_iff, head?_reports_unresolvedTypes]
  simp [danglingError?]

theorem errorOf?_imports_eq_some_iff : errorOf? (d.imports t) = some e ↔ ∃ site r h,
    FirstIn d.siteRefs (fun (_, r) => ∃ h, r.Dangles t h) (site, r) ∧ r.Dangles t h ∧
      (d.reports t .unresolvedTypes).head? = some (d.danglingReport site r.name h) ∧
      .unresolvedType d.qualifiedName site.memberLabel r.name h = e := by
  have hdangles (entry : Site × Ref) : (∃ h, entry.2.Dangles t h) ↔ Lint.dangling? t entry.2 ≠ none := by
    simp [Option.ne_none_iff_exists', Ref.dangling?_eq_some_iff]
  rw [imports_outcome, errorOf?_outcome, head?_reports_unresolvedTypes,
    findSome?_eq_some_iff_firstIn fun entry => by simpa [danglingError?] using hdangles entry]
  constructor
  · intro h
    obtain ⟨⟨site, r⟩, hfirst, he⟩ := h
    obtain ⟨h, hr, rfl⟩ := Option.map_eq_some_iff.1 he
    refine ⟨site, r, h, hfirst, Ref.dangling?_eq_some_iff.1 hr, ?_, rfl⟩
    -- the lint goes through the same references in the same order
    rw [findSome?_eq_some_iff_firstIn fun entry => by simpa using hdangles entry]
    exact ⟨(site, r), hfirst, by simp [hr]⟩
  · intro h
    obtain ⟨site, r, h, hfirst, hr, -, rfl⟩ := h
    exact ⟨(site, r), hfirst, by simp [danglingError?, Ref.dangling?_eq_some_iff.2 hr]⟩

theorem errorOf?_check_eq_none_iff : errorOf? d.check = none ↔
    d.reports t .interfaceFields = [] ∧ d.reports t .accessorConstructor = [] := by
  rw [errorOf?_check, Option.or_eq_none_iff, Option.map_eq_none_iff, Option.map_eq_none_iff,
    reports_interfaceFields_eq_nil_iff, reports_accessorConstructor_eq_nil_iff]

theorem errorOf?_check_eq_some_iff : errorOf? d.check = some e ↔
    (d.reports t .interfaceFields ≠ [] ∧ ∃ f, d.fields.head? = some f ∧ .interfaceField d.qualifiedName f.name = e) ∨
    (d.reports t .interfaceFields = [] ∧ d.reports t .accessorConstructor ≠ [] ∧
      ∃ m, FirstIn d.methods (fun m => m.isConstructor = true ∧ m.isAccessor = true) m ∧
        .accessorConstructor d.qualifiedName m.name = e) := by
  have hfield (f : Field) : (if d.isInterface then d.fields.head? else none) = some f ↔
      d.reports t .interfaceFields ≠ [] ∧ d.fields.head? = some f := by
    rw [ne_eq, reports_interfaceFields_eq_nil_iff]
    cases hd : d.isInterface with
    | false => simp
    | true => exact ⟨fun hf => ⟨ne_of_eq_of_ne hf (Option.some_ne_none f), hf⟩, fun h => h.2⟩
  have hmethod (m : Method) : d.methods.find? (fun m => m.isConstructor && m.isAccessor) = some m ↔
      d.reports t .accessorConstructor ≠ [] ∧
        FirstIn d.methods (fun m => m.isConstructor = true ∧ m.isAccessor = true) m := by
    rw [ne_eq, reports_accessorConstructor_eq_nil_iff]
    simp only [← Bool.and_eq_true, ← find?_eq_some_iff_firstIn]
    exact ⟨fun hm => ⟨ne_of_eq_of_ne hm (Option.some_ne_none m), hm⟩, fun h => h.2⟩
  rw [errorOf?_check, Option.or_eq_some_iff, Option.map_eq_none_iff, Option.map_eq_some_iff, Option.map_eq_some_iff,
    ← reports_interfaceFields_eq_nil_iff (t := t)]
  simp only [hfield, hmethod, and_assoc, exists_and_left]

theorem errorOf?_takeDelegation_eq_some_iff {declaration : String} {lines : List Line} :
    errorOf? (ConstructorBody.takeDelegation declaration lines) = some e ↔
      ∃ x, lines.find? (!·.isBlank) = some x ∧ Delegation.UnknownMarker (Text.trim x.text.toList) ∧
        .unknownDelegation declaration (.ofList (Text.trim x.text.toList)) = e := by
  obtain hall | ⟨blanks, x, rest, hl, hb, hx⟩ := ConstructorBody.lines_cases lines
  · have hnone : lines.find? (!·.isBlank) = none := by simpa [List.find?_eq_none] using hall
    simp [ConstructorBody.takeDelegation, ConstructorBody.dropWhile_of_blank hall, hnone, errorOf?]
  · simp only [ConstructorBody.takeDelegation, ConstructorBody.dropWhile_of_statement hl hb hx,
      ConstructorBody.find?_of_statement hl hb hx, Option.some.injEq, exists_eq_left',
      ← Delegation.parse_eq_error_iff]
    cases hp : Delegation.parse (Text.trim x.text.toList) with
    | error u => simp [errorOf?]
    | ok found => cases found <;> simp [errorOf?]

theorem delegationError?_eq_some_iff {m : Method} : d.delegationError? m = some e ↔
    ∃ line, m.StartsUnknown line ∧ .unknownDelegation d.qualifiedName (.ofList line) = e := by
  rw [delegationError?, Option.ite_none_right_eq_some, errorOf?_takeDelegation_eq_some_iff]
  constructor
  · intro h
    obtain ⟨hm, x, hx, hmarker, rfl⟩ := h
    exact ⟨_, ⟨hm, hmarker, x, hx, rfl⟩, rfl⟩
  · intro h
    obtain ⟨_, ⟨hm, hmarker, x, hx, rfl⟩, rfl⟩ := h
    exact ⟨hm, x, hx, hmarker, rfl⟩

theorem delegationError?_eq_none_iff {m : Method} :
    d.delegationError? m = none ↔ ¬∃ line, m.StartsUnknown line := by
  simp [Option.eq_none_iff_forall_ne_some, delegationError?_eq_some_iff]

theorem markerError?_eq_none_iff : d.markerError? = none ↔ ¬d.StartsUnknown := by
  cases hd : d.isInterface with
  | true => simp [markerError?, StartsUnknown, hd]
  | false => simp [markerError?, StartsUnknown, hd, delegationError?_eq_none_iff]

theorem markerError?_eq_some_iff : d.markerError? = some e ↔ d.isInterface = false ∧
    ∃ m line, FirstIn d.methods (fun m => ∃ line, m.StartsUnknown line) m ∧ m.StartsUnknown line ∧
      .unknownDelegation d.qualifiedName (.ofList line) = e := by
  have hstarts (m : Method) : (∃ line, m.StartsUnknown line) ↔ d.delegationError? m ≠ none := by
    rw [ne_eq, delegationError?_eq_none_iff, not_not]
  cases hd : d.isInterface with
  | true => simp [markerError?, hd]
  | false => simp [markerError?, hd, findSome?_eq_some_iff_firstIn hstarts, delegationError?_eq_some_iff]

theorem errorOf?_render_eq_none_iff : errorOf? (d.render δ t) = none ↔ d.Faultless t := by
  rw [errorOf?_render, Option.or_eq_none_iff, Option.or_eq_none_iff, errorOf?_imports_eq_none_iff,
    errorOf?_check_eq_none_iff (t := t), markerError?_eq_none_iff]
  simp [Faultless, Lint.blocking, and_assoc]

theorem errorOf?_render_eq_some_iff : errorOf? (d.render δ t) = some e ↔ d.Refused t e := by
  rw [errorOf?_render, Option.or_eq_some_iff, Option.or_eq_some_iff, errorOf?_imports_eq_none_iff,
    errorOf?_imports_eq_some_iff, errorOf?_check_eq_none_iff (t := t), errorOf?_check_eq_some_iff (t := t),
    markerError?_eq_some_iff]
  constructor
  · intro h
    obtain ⟨site, r, h, hfirst, hr, hreport, rfl⟩ | ⟨hrefs, (⟨hreport, f, hf, rfl⟩ |
      ⟨hfields, hreport, m, hfirst, rfl⟩) | ⟨⟨hfields, hmethods⟩, hclass, m, line, hfirst, hline, rfl⟩⟩ := h
    · exact .unresolvedType hfirst hr hreport
    · exact .interfaceField hrefs hreport hf
    · exact .accessorConstructor hrefs hfields hreport hfirst
    · exact .unknownDelegation (by simp [Lint.blocking, hrefs, hfields, hmethods]) hclass hfirst hline
  · intro h
    cases h with
    | unresolvedType hfirst hr hreport => exact .inl ⟨_, _, _, hfirst, hr, hreport, rfl⟩
    | interfaceField hrefs hreport hf => exact .inr ⟨hrefs, .inl (.inl ⟨hreport, _, hf, rfl⟩)⟩
    | accessorConstructor hrefs hfields hreport hfirst =>
      exact .inr ⟨hrefs, .inl (.inr ⟨hfields, hreport, _, hfirst, rfl⟩)⟩
    | unknownDelegation hreports hclass hfirst hline =>
      simp only [Lint.blocking, List.forall_mem_cons] at hreports
      obtain ⟨hrefs, hfields, hmethods, -⟩ := hreports
      exact .inr ⟨hrefs, .inr ⟨⟨hfields, hmethods⟩, hclass, _, _, hfirst, hline, rfl⟩⟩

end Errors

end Declaration

namespace Table

variable (t : Table) (δ : Dialect) (root : Path)

theorem errorOf?_emitAll_stale (stale : String → Path → Bool) : errorOf? (t.emitAll δ stale root) =
    t.declarations.findSome? fun d =>
      if stale d.qualifiedName (d.outputPath δ root) then errorOf? (d.render δ t) else none := by
  have hentry (entry : Handle × Declaration) : errorOf? (t.emitDeclaration δ stale root entry.1 entry.2) =
      if stale entry.2.qualifiedName (entry.2.outputPath δ root) then errorOf? (entry.2.render δ t) else none := by
    rw [emitDeclaration]
    split
    · rw [errorOf?_bind_pure]
    · rfl
  rw [emitAll, errorOf?_bind_pure, errorOf?_mapM]
  -- the errors do not depend on the handles that the declarations are paired with
  simp only [hentry, entries, List.findSome?_map]
  conv_rhs => rw [← List.zipIdx_map_fst 0 t.declarations, List.findSome?_map]
  rfl

theorem errorOf?_emitAll : errorOf? (t.emitAll δ (fun _ _ => true) root) =
    t.declarations.findSome? fun d => errorOf? (d.render δ t) := by
  simp [errorOf?_emitAll_stale]

theorem forall_validate_iff : (∀ x ∈ t.validate Lint.builtin, x.lint ∉ Lint.blocking.map Lint.name) ↔
    ∀ d ∈ t.declarations, ∀ lint ∈ Lint.blocking, d.reports t lint = [] := by
  simp only [Declaration.reports, List.filter_eq_nil_iff, decide_eq_true_eq]
  constructor
  · intro h d hd lint hlint x hx hname
    refine h x (List.mem_flatMap.2 ⟨d, hd, hx⟩) ?_
    rw [hname]
    exact List.mem_map_of_mem hlint
  · intro h x hx hname
    obtain ⟨d, hd, hx⟩ := List.mem_flatMap.1 hx
    obtain ⟨lint, hlint, heq⟩ := List.mem_map.1 hname
    exact h d hd lint hlint x hx heq.symm

/-- The emission of all files succeeds exactly if no blocking lint has a finding and no class has a constructor that
begins with an unknown marker; otherwise it stops at the first declaration with such a fault. -/
theorem emitAll_fails_at_first_fault :
    ((∃ files, t.emitAll δ (fun _ _ => true) root = .ok files) ↔
      (∀ x ∈ t.validate Lint.builtin, x.lint ∉ Lint.blocking.map Lint.name) ∧
        ∀ d ∈ t.declarations, ¬d.StartsUnknown) ∧
    ∀ e, t.emitAll δ (fun _ _ => true) root = .error e ↔
      ∃ d, FirstIn t.declarations (¬·.Faultless t) d ∧ d.Refused t e := by
  constructor
  · rw [← errorOf?_eq_none, errorOf?_emitAll, List.findSome?_eq_none_iff, forall_validate_iff, ← forall₂_and]
    simp only [Declaration.errorOf?_render_eq_none_iff, Declaration.Faultless]
  · intro e
    have hfaults (d : Declaration) : ¬d.Faultless t ↔ errorOf? (d.render δ t) ≠ none := by
      rw [ne_eq, Declaration.errorOf?_render_eq_none_iff]
    rw [← errorOf?_eq_some, errorOf?_emitAll, findSome?_eq_some_iff_firstIn hfaults]
    simp only [Declaration.errorOf?_render_eq_some_iff]

end Table

end Stencil
