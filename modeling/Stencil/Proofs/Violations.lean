import Stencil.Proofs.ImportSets
import Stencil.Proofs.MemberNames
import Mathlib.Algebra.GroupWithZero.Nat
import Mathlib.Data.List.FinRange

/-! What the built-in lints report, counted. The rules that a table can break are stated here on their own: no fields
in interfaces, no constructors that are accessors, no handles that lead out of the table, and names for fields alone.
Main statement: each violation of a rule is reported as one error and nothing else is, so there is no error exactly if
the table keeps all rules. -/
namespace Stencil

def Ref.isStray (size : Nat) (r : Ref) : Bool := r.handle.any fun h => size ≤ h.index.toNat

namespace TypeExpr

mutual
def strays (size : Nat) : TypeExpr → Nat
  | primitive _ => 0
  | named r => if r.isStray size then 1 else 0
  | vector t => t.strays size
  | function result params => resultStrays size result + paramStrays size params

def resultStrays (size : Nat) : Option TypeExpr → Nat
  | none => 0
  | some t => t.strays size

def paramStrays (size : Nat) : List TypeExpr → Nat
  | [] => 0
  | t :: ts => t.strays size + paramStrays size ts
end

end TypeExpr

namespace Declaration

variable (d : Declaration)

def Repeats (i : Fin d.fields.length) : Prop := ∃ j < i, (d.fields.get j).name = (d.fields.get i).name

def Shadows (i : Fin d.fields.length) : Prop :=
  ∃ m ∈ d.methods, m.isConstructor = false ∧ m.name = (d.fields.get i).name

/-- The field repeats a name or, if it is the first with it, has that of a method. -/
def NameTaken (i : Fin d.fields.length) : Prop := d.Repeats i ∨ ¬d.Repeats i ∧ d.Shadows i

instance : DecidablePred d.Repeats := fun i => inferInstanceAs (Decidable (∃ j < i, _ = _))

instance : DecidablePred d.Shadows := fun _ => inferInstanceAs (Decidable (∃ m ∈ d.methods, _ ∧ _))

instance : DecidablePred d.NameTaken := fun _ => inferInstanceAs (Decidable (_ ∨ _))

def misplacedFields : List Field := if d.isInterface then d.fields else []

def mixedMethods : List Method := d.methods.filter fun m => m.isConstructor && m.isAccessor

def types : List TypeExpr := d.signatureTypes ++ d.delegates.flatMap Delegate.types ++ d.extraImports

def takenFields : List (Fin d.fields.length) := (List.finRange d.fields.length).filter d.NameTaken

def ignoredMethods : List Method :=
  if d.isInterface then d.methods.filter fun m => m.isConstructor || m.body.lines.any (!·.isBlank) else []

def violation (lint member : String) : String × Option String := (lint, some (d.memberPath member))

/-- The violations in a declaration of a table of this size. A handle counts as often as it occurs. -/
def violations (size : Nat) : List (String × Option String) :=
  d.misplacedFields.map (fun f => d.violation "interface-fields" f.name) ++
  d.mixedMethods.map (fun m => d.violation "accessor-constructor" m.name) ++
  d.sites.flatMap (fun place => .replicate (place.2.strays size) (d.violation "unresolved-types" place.1.pathLabel)) ++
  d.takenFields.map (fun i => d.violation "duplicate-members" (d.fields.get i).name)

end Declaration

structure Table.WellFormed (t : Table) : Prop where
  fields : ∀ d ∈ t.declarations, d.isInterface = true → d.fields = []
  methods : ∀ d ∈ t.declarations, ∀ m ∈ d.methods, ¬(m.isConstructor = true ∧ m.isAccessor = true)
  handles : ∀ d ∈ t.declarations, ∀ r h, d.Mentions r → r.handle = some h → h.index.toNat < t.size
  names : ∀ d ∈ t.declarations, d.fields.Pairwise (fun f g => f.name ≠ g.name) ∧
    ∀ f ∈ d.fields, ∀ m ∈ d.methods, m.isConstructor = false → f.name ≠ m.name

def Diagnostic.origin (x : Diagnostic) : String × Option String := (x.lint, x.location)

namespace TypeExpr

theorem paramStrays_eq_sum (size : Nat) (ts : List TypeExpr) : paramStrays size ts = (ts.map (strays size)).sum := by
  induction ts with
  | nil => rfl
  | cons t ts ih => rw [paramStrays, ih, List.map_cons, List.sum_cons]

theorem countP_paramRefs (p : Ref → Bool) (ts : List TypeExpr) :
    (paramRefs ts).countP p = (ts.map fun t => t.refs.countP p).sum := by
  induction ts with
  | nil => rfl
  | cons t ts ih => rw [paramRefs, List.countP_append, ih, List.map_cons, List.sum_cons]

theorem strays_eq_countP (size : Nat) (t : TypeExpr) : t.strays size = t.refs.countP (Ref.isStray size) := by
  induction t using induct with
  | primitive p => rfl
  | named r => rw [strays, refs, List.countP_singleton]
  | vector t ih => exact ih
  | function result params hresult hparams =>
    rw [strays, refs, List.countP_append, paramStrays_eq_sum, countP_paramRefs, List.map_congr_left hparams]
    cases result with
    | none => rfl
    | some t => rw [resultStrays, resultRefs, hresult t rfl]

end TypeExpr

namespace Lint

variable {t : Table} {d : Declaration}

theorem isSome_dangling? (t : Table) (r : Ref) : (dangling? t r).isSome = r.isStray t.size := by
  cases hr : r.handle with
  | none => simp [dangling?, Ref.isStray, hr]
  | some h =>
    rw [Bool.eq_iff_iff, Ref.isStray, hr, Option.any_some, decide_eq_true_iff]
    simp [dangling?, hr, Table.get?, Table.size]

theorem fst_fieldNameMessage? (seen methods : List String) (name : String) :
    ((fieldNameMessage? seen methods name).map (Prod.mk name)).toList.map Prod.fst =
      if name ∈ seen ∨ name ∈ methods then [name] else [] := by
  by_cases hseen : name ∈ seen
  · simp [fieldNameMessage?, hseen]
  · by_cases hmethod : name ∈ methods
    · simp [fieldNameMessage?, hseen, hmethod]
    · simp [fieldNameMessage?, hseen, hmethod]

theorem takenNames_eq (methods seen : List String) (fields : List Field) :
    (takenNames methods seen (fields.map Field.name)).map Prod.fst =
      ((List.finRange fields.length).filter fun i => (fields.get i).name ∈ seen ∨
        (∃ j < i, (fields.get j).name = (fields.get i).name) ∨ (fields.get i).name ∈ methods).map
        fun i => (fields.get i).name := by
  induction fields generalizing seen with
  | nil => rfl
  | cons f fields ih =>
    have hlater (i : Fin fields.length) : (fields.get i).name ∈ f.name :: seen ∨
        (∃ j < i, (fields.get j).name = (fields.get i).name) ∨ (fields.get i).name ∈ methods ↔
        (fields.get i).name ∈ seen ∨
          (∃ j < i.succ, ((f :: fields).get j).name = (fields.get i).name) ∨ (fields.get i).name ∈ methods := by
      have hearlier : (∃ j < i.succ, ((f :: fields).get j).name = (fields.get i).name) ↔
          f.name = (fields.get i).name ∨ ∃ j < i, (fields.get j).name = (fields.get i).name := by
        simp [Fin.exists_fin_succ]
      rw [hearlier, List.mem_cons, eq_comm, or_assoc, or_left_comm, or_assoc]
    have hrange : List.finRange (f :: fields).length = 0 :: (List.finRange fields.length).map Fin.succ :=
      List.finRange_succ
    rw [List.map_cons, takenNames, List.map_append, fst_fieldNameMessage?, ih, hrange, List.filter_cons,
      List.filter_map]
    simp only [hlater]
    by_cases hf : f.name ∈ seen ∨ f.name ∈ methods
    · simp [hf, Function.comp_def]
    · simp [hf, Function.comp_def]

theorem origin_interfaceFields : (interfaceFields.check t d).map Diagnostic.origin =
    d.misplacedFields.map fun f => d.violation "interface-fields" f.name := by
  cases hd : d.isInterface with
  | true => simp [interfaceFields, Declaration.misplacedFields, hd, Function.comp_def, Diagnostic.origin,
      Declaration.violation]
  | false => simp [interfaceFields, Declaration.misplacedFields, hd]

theorem origin_accessorConstructor : (accessorConstructor.check t d).map Diagnostic.origin =
    d.mixedMethods.map fun m => d.violation "accessor-constructor" m.name := by
  rw [accessorConstructor, List.map_map]
  rfl

theorem origin_dangling (refs : List Ref) (site : Site) :
    (refs.filterMap fun r => (dangling? t r).map (d.danglingReport site r.name)).map Diagnostic.origin =
      .replicate (refs.countP (Ref.isStray t.size)) (d.violation "unresolved-types" site.pathLabel) := by
  induction refs with
  | nil => rfl
  | cons r refs ih =>
    have hr := isSome_dangling? t r
    cases hd : dangling? t r with
    | none =>
      rw [List.filterMap_cons_none (by rw [hd]; rfl), ih, List.countP_cons_of_neg (by simp [← hr, hd])]
    | some h =>
      rw [List.filterMap_cons_some (by rw [hd]; rfl), List.map_cons, ih, List.countP_cons_of_pos (by simp [← hr, hd])]
      rfl

theorem origin_unresolvedTypes : (unresolvedTypes.check t d).map Diagnostic.origin =
    d.sites.flatMap fun place =>
      .replicate (place.2.strays t.size) (d.violation "unresolved-types" place.1.pathLabel) := by
  simp only [Declaration.unresolvedTypes_check, List.map_flatMap, origin_dangling, TypeExpr.strays_eq_countP]

theorem origin_duplicateMembers : (duplicateMembers.check t d).map Diagnostic.origin =
    d.takenFields.map fun i => d.violation "duplicate-members" (d.fields.get i).name := by
  let methods := (d.methods.filter (!·.isConstructor)).map Method.name
  have hcheck : (duplicateMembers.check t d).map Diagnostic.origin =
      ((takenNames methods [] (d.fields.map Field.name)).map Prod.fst).map (d.violation "duplicate-members") := by
    rw [duplicateMembers, List.map_map, List.map_map]
    rfl
  have htaken (i : Fin d.fields.length) : ((d.fields.get i).name ∈ ([] : List String) ∨
      (∃ j < i, (d.fields.get j).name = (d.fields.get i).name) ∨ (d.fields.get i).name ∈ methods) ↔ d.NameTaken i := by
    have hshadows : (d.fields.get i).name ∈ methods ↔ d.Shadows i := by
      simp [methods, Declaration.Shadows, and_assoc]
    rw [hshadows, Declaration.NameTaken, or_iff_right List.not_mem_nil]
    change d.Repeats i ∨ d.Shadows i ↔ _
    tauto
  simp only [hcheck, takenNames_eq, htaken, List.map_map]
  rfl

theorem length_interfaceBodies : (interfaceBodies.check t d).length = d.ignoredMethods.length := by
  have hmessage (m : Method) : (interfaceMethodMessage? d m).isSome =
      (m.isConstructor || m.body.lines.any (!·.isBlank)) := by
    cases hm : m.isConstructor with
    | true => simp [interfaceMethodMessage?, hm]
    | false =>
      have hbody : m.body.firstStatement?.isSome = m.body.lines.any (!·.isBlank) := by
        rw [Listing.firstStatement?, List.findIdx?_isSome]
      cases hany : m.body.lines.any (!·.isBlank) with
      | true => simp [interfaceMethodMessage?, hm, hbody, hany]
      | false => simp [interfaceMethodMessage?, hm, hbody, hany]
  cases hd : d.isInterface with
  | true =>
    simp [interfaceBodies, Declaration.ignoredMethods, hd, List.length_filterMap_eq_countP, hmessage,
      List.countP_eq_length_filter]
  | false => simp [interfaceBodies, Declaration.ignoredMethods, hd]

theorem filter_check {lints : List Lint} (hsigned : ∀ l ∈ lints, ∀ x ∈ l.check t d, x.severity = l.severity)
    (severity : Severity) : (lints.flatMap fun l => l.check t d).filter (·.severity == severity) =
      (lints.filter (·.severity = severity)).flatMap fun l => l.check t d := by
  induction lints with
  | nil => rfl
  | cons l lints ih =>
    rw [List.forall_mem_cons] at hsigned
    rw [List.flatMap_cons, List.filter_append, ih hsigned.2]
    by_cases hl : l.severity = severity
    · have hall : (l.check t d).filter (·.severity == severity) = l.check t d := by
        rw [List.filter_eq_self]
        intro x hx
        simp [hsigned.1 x hx, hl]
      rw [hall, List.filter_cons_of_pos (by simpa using hl), List.flatMap_cons]
    · have hnone : (l.check t d).filter (·.severity == severity) = [] := by
        rw [List.filter_eq_nil_iff]
        intro x hx
        simp [hsigned.1 x hx, hl]
      rw [hnone, List.filter_cons_of_neg (by simpa using hl), List.nil_append]

theorem filter_validate (t : Table) (severity : Severity) :
    (t.validate builtin).filter (·.severity == severity) =
      t.declarations.flatMap fun d => (builtin.filter (·.severity = severity)).flatMap fun l => l.check t d := by
  rw [Table.validate, List.filter_flatMap]
  congr 1
  funext d
  exact filter_check (fun l hl x hx => (Declaration.builtin_signed hl hx).2) severity

end Lint

namespace Table

variable (t : Table)

theorem errors_validate : Diagnostic.errors (t.validate Lint.builtin) = t.declarations.flatMap fun d =>
    Lint.interfaceFields.check t d ++ Lint.accessorConstructor.check t d ++ Lint.unresolvedTypes.check t d ++
      Lint.duplicateMembers.check t d := by
  have herrors : Diagnostic.errors (t.validate Lint.builtin) = _ := Lint.filter_validate t .error
  have hlints : Lint.builtin.filter (·.severity = .error) =
      [.interfaceFields, .accessorConstructor, .unresolvedTypes, .duplicateMembers] := rfl
  simp only [herrors, hlints, List.flatMap_cons, List.flatMap_nil, List.append_nil, List.append_assoc]

theorem warnings_validate : Diagnostic.warnings (t.validate Lint.builtin) =
    t.declarations.flatMap fun d => Lint.interfaceBodies.check t d := by
  have hwarnings : Diagnostic.warnings (t.validate Lint.builtin) = _ := Lint.filter_validate t .warning
  have hlints : Lint.builtin.filter (·.severity = .warning) = [.interfaceBodies] := rfl
  simp only [hwarnings, hlints, List.flatMap_cons, List.flatMap_nil, List.append_nil]

theorem errors_origin : (Diagnostic.errors (t.validate Lint.builtin)).map Diagnostic.origin =
    t.declarations.flatMap fun d => d.violations t.size := by
  simp only [errors_validate, List.map_flatMap, List.map_append, Lint.origin_interfaceFields,
    Lint.origin_accessorConstructor, Lint.origin_unresolvedTypes, Lint.origin_duplicateMembers, Declaration.violations]

theorem length_violations (size : Nat) (d : Declaration) : (d.violations size).length =
    d.misplacedFields.length + d.mixedMethods.length + (d.types.map (TypeExpr.strays size)).sum +
      d.takenFields.length := by
  have htypes : d.types.map (TypeExpr.strays size) = d.sites.map fun place => place.2.strays size := by
    rw [Declaration.types, ← d.sites_types, List.map_map]
    rfl
  simp [Declaration.violations, List.length_flatMap, htypes, Nat.add_assoc]

theorem interfaceFields_eq_nil_iff {d : Declaration} :
    Lint.interfaceFields.check t d = [] ↔ (d.isInterface = true → d.fields = []) := by
  cases hd : d.isInterface with
  | true => simp [Lint.interfaceFields, hd]
  | false => simp [Lint.interfaceFields, hd]

theorem accessorConstructor_eq_nil_iff {d : Declaration} : Lint.accessorConstructor.check t d = [] ↔
    ∀ m ∈ d.methods, ¬(m.isConstructor = true ∧ m.isAccessor = true) := by
  simp [Lint.accessorConstructor]

theorem unresolvedTypes_eq_nil_iff {d : Declaration} : Lint.unresolvedTypes.check t d = [] ↔
    ∀ r h, d.Mentions r → r.handle = some h → h.index.toNat < t.size := by
  rw [← Declaration.reports_eq (by simp [Lint.builtin]), ← Declaration.errorOf?_imports_eq_none_iff, errorOf?_eq_none,
    Declaration.exists_imports_iff]
  simp [Ref.Dangles, get?, size]

theorem errors_eq_nil_iff : Diagnostic.errors (t.validate Lint.builtin) = [] ↔ t.WellFormed := by
  simp only [errors_validate, List.flatMap_eq_nil_iff, List.append_eq_nil_iff, interfaceFields_eq_nil_iff,
    accessorConstructor_eq_nil_iff, unresolvedTypes_eq_nil_iff, Lint.duplicateMembers_eq_nil_iff]
  constructor
  · intro h
    exact ⟨fun d hd => (h d hd).1.1.1, fun d hd => (h d hd).1.1.2, fun d hd => (h d hd).1.2, fun d hd => (h d hd).2⟩
  · intro h d hd
    exact ⟨⟨⟨h.fields d hd, h.methods d hd⟩, h.handles d hd⟩, h.names d hd⟩

/-- Each violation is reported as one error, with the name of its lint and the path of its member, and there are no other
errors. Each method of an interface that is a constructor or has a statement is reported as one warning, and there are
no other findings. -/
theorem violations_reported_once :
    (Diagnostic.errors (t.validate Lint.builtin)).map Diagnostic.origin =
      t.declarations.flatMap (·.violations t.size) ∧
    (Diagnostic.errors (t.validate Lint.builtin)).length =
      (t.declarations.map fun d => d.misplacedFields.length + d.mixedMethods.length +
        (d.types.map (TypeExpr.strays t.size)).sum + d.takenFields.length).sum ∧
    (Diagnostic.warnings (t.validate Lint.builtin)).length =
      (t.declarations.map (·.ignoredMethods.length)).sum ∧
    (∀ x ∈ t.validate Lint.builtin, x.isError = true ∨ x.isWarning = true) ∧
    (Diagnostic.errors (t.validate Lint.builtin) = [] ↔ t.WellFormed) := by
  refine ⟨t.errors_origin, ?_, ?_, ?_, t.errors_eq_nil_iff⟩
  · rw [← List.length_map Diagnostic.origin, errors_origin, List.length_flatMap]
    simp only [length_violations]
  · simp only [warnings_validate, List.length_flatMap, Lint.length_interfaceBodies]
  · intro x hx
    obtain ⟨d, -, hd⟩ := List.mem_flatMap.1 hx
    obtain ⟨l, hl, hlint⟩ := List.mem_flatMap.1 hd
    rw [Diagnostic.isError, Diagnostic.isWarning, (Declaration.builtin_signed hl hlint).2, Lint.severity]
    split
    · exact .inr rfl
    · exact .inl rfl

end Table

end Stencil
