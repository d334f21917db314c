import Stencil.Proofs.DeferredInitializers
import Stencil.Proofs.Spellings

/-! The names under which the members of a class are written. A lint compares the names that are declared; what is
written has reserved words escaped, names of their own for accessors, and the name of the initializer method. Main
statement: which names still meet when the lint has nothing to report. -/
namespace Stencil

namespace Lint

theorem takenNames_eq_nil_iff {methods seen names : List String} :
    takenNames methods seen names = [] ↔ names.Nodup ∧ ∀ n ∈ names, n ∉ seen ∧ n ∉ methods := by
  induction names generalizing seen with
  | nil => simp [takenNames]
  | cons n names ih =>
    have hfirst : fieldNameMessage? seen methods n = none ↔ n ∉ seen ∧ n ∉ methods := by
      by_cases hseen : n ∈ seen
      · simp [fieldNameMessage?, hseen]
      · by_cases hmethod : n ∈ methods <;> simp [fieldNameMessage?, hseen, hmethod]
    rw [takenNames, List.append_eq_nil_iff, Option.toList_eq_nil_iff, Option.map_eq_none_iff, hfirst, ih,
      List.nodup_cons, List.forall_mem_cons]
    simp only [List.mem_cons, not_or]
    -- the name is seen from here on, so no later one repeats it
    constructor
    · intro h
      obtain ⟨hn, hnodup, hrest⟩ := h
      refine ⟨⟨fun hmem => (hrest n hmem).1.1 rfl, hnodup⟩, hn, fun a ha => ?_⟩
      exact ⟨(hrest a ha).1.2, (hrest a ha).2⟩
    · intro h
      obtain ⟨⟨hnew, hnodup⟩, hn, hrest⟩ := h
      refine ⟨hn, hnodup, fun a ha => ⟨⟨?_, (hrest a ha).1⟩, (hrest a ha).2⟩⟩
      intro heq
      exact hnew (heq ▸ ha)

theorem duplicateMembers_eq_nil_iff {t : Table} {d : Declaration} : duplicateMembers.check t d = [] ↔
    d.fields.Pairwise (fun f g => f.name ≠ g.name) ∧
      ∀ f ∈ d.fields, ∀ m ∈ d.methods, m.isConstructor = false → f.name ≠ m.name := by
  simp only [duplicateMembers, List.map_eq_nil_iff, takenNames_eq_nil_iff, List.Nodup, List.pairwise_map,
    List.forall_mem_map, List.not_mem_nil, not_false_eq_true, true_and]
  refine and_congr_right fun _ => forall₂_congr fun f _ => ?_
  simp only [List.mem_map, List.mem_filter, Bool.not_eq_true', not_exists, not_and, and_imp]
  exact forall₃_congr fun m _ _ => ne_comm

end Lint

/-- One of the names is a reserved word, and the other is what it is escaped to. -/
def Naming.Clash (n : Naming) (a b : String) : Prop :=
  n.isReserved a = true ∧ b = n.escape a ∨ n.isReserved b = true ∧ a = n.escape b

instance (n : Naming) (a b : String) : Decidable (n.Clash a b) := inferInstanceAs (Decidable (_ ∨ _))

theorem Naming.spelledAlike_iff_clash {n : Naming} {a b : String} (h : a ≠ b) :
    n.SpelledAlike a b ↔ n.Clash a b := by
  simp [SpelledAlike, Clash, h]

namespace Dialect.CSharp

variable {indent : Indent} {policy : InitPolicy}

theorem identifier_eq_iff (a b : String) :
    (csharp indent policy).identifier a = (csharp indent policy).identifier b ↔ naming.SpelledAlike a b :=
  typeName_eq_iff a b

def Plain (name : String) : Prop := naming.isReserved name = false ∧ name.toList.head? ≠ some '@'

instance : DecidablePred Plain := fun _ => inferInstanceAs (Decidable (_ ∧ _))

theorem identifier_eq_iff_of_plain {b : String} (hb : Plain b) (a : String) :
    (csharp indent policy).identifier a = (csharp indent policy).identifier b ↔ a = b := by
  rw [identifier_eq_iff]
  constructor
  · intro h
    obtain h | ⟨-, hescape⟩ | ⟨hreserved, -⟩ := h
    · exact h
    · exact absurd (by simp [hescape, naming, String.toList_append]) hb.2
    · rw [hb.1] at hreserved
      cases hreserved
  · exact .inl

theorem eq_identifier_iff_of_plain {b : String} (hb : Plain b) (a : String) :
    b = (csharp indent policy).identifier a ↔ a = b := by
  have hself : (csharp indent policy).identifier b = b := if_neg (ne_true_of_eq_false hb.1)
  rw [← identifier_eq_iff_of_plain hb, hself, eq_comm]

theorem plain_append {mark : String} (h : mark = "get" ∨ mark = "set") (rest : String) : Plain (mark ++ rest) := by
  have hwords : ∀ w ∈ reserved, w.toList.take 3 ≠ "get".toList ∧ w.toList.take 3 ≠ "set".toList := by
    decide +kernel
  have hmem : mark ++ rest ∉ reserved := by
    intro hmem
    obtain rfl | rfl := h
    · exact (hwords _ hmem).1 (by simp [String.toList_append])
    · exact (hwords _ hmem).2 (by simp [String.toList_append])
  refine ⟨by simpa [Naming.isReserved, naming] using hmem, ?_⟩
  obtain rfl | rfl := h
  · simp [String.toList_append]
  · simp [String.toList_append]

end Dialect.CSharp

/-- The text of a member gives it this name: behind the name comes the end of a field, its initializer, or a
parameter list. -/
def Declares (text name : String) : Prop :=
  ∃ front rest, text = front ++ " " ++ name ++ rest ∧
    (rest = ";" ∨ (∃ e, rest = " = " ++ e ++ ";") ∨ ∃ params clause, rest = "(" ++ params ++ ")" ++ clause)

def Member.header (δ : Dialect) : Member → String
  | method header _ => header
  | constructor c => c.header δ

namespace Declaration

variable (δ : Dialect) (d : Declaration)

def writtenName (m : Method) : String :=
  if m.isConstructor then δ.naming.typeName d.name else δ.methodName m

def plainName (m : Method) : String :=
  if m.isConstructor then d.name
  else if m.flags.isGetter then δ.getterName m.name
  else if m.flags.isSetter then δ.setterName m.name
  else m.name

structure NamesWritten (o : ClassOutline) : Prop where
  fields : List.Forall₂ (fun f line => Declares line (δ.identifier f.name)) d.fields o.fields
  methods : List.Forall₂ (fun m x => Declares (x.header δ) (d.writtenName δ m)) d.methods o.members
  initializer : Declares δ.initializerHeader δ.initializerMethod ∧ (o.initializer.isSome = true ↔ d.Defers δ)

/-- No name of a field is written twice, none is written for a method too, and the initializer method, if there is
one, shares its name with nothing. -/
@[mk_iff]
structure NamesApart : Prop where
  fields : d.fields.Pairwise fun f g => δ.identifier f.name ≠ δ.identifier g.name
  methods : ∀ f ∈ d.fields, ∀ m ∈ d.methods, m.isConstructor = false → δ.identifier f.name ≠ δ.methodName m
  initializer : d.Defers δ → (∀ f ∈ d.fields, δ.initializerMethod ≠ δ.identifier f.name) ∧
    ∀ m ∈ d.methods, δ.initializerMethod ≠ d.writtenName δ m

variable {δ d}

theorem declares_fieldLine (f : Field) : Declares (δ.fieldLine f) (δ.identifier f.name) := by
  refine ⟨f.visibility.keyword ++ " " ++ δ.fieldModifier f ++ δ.type f.type, δ.inlineInitializer f ++ ";", ?_, ?_⟩
  · simp only [Dialect.fieldLine, String.append_assoc]
  · rw [Dialect.inlineInitializer]
    split
    · split
      · exact .inr (.inl ⟨_, rfl⟩)
      · exact .inl rfl
    · exact .inl rfl

theorem declares_header {m : Method} {x : Member} (h : d.MemberWritten δ m x) :
    Declares (x.header δ) (d.writtenName δ m) := by
  cases h with
  | method hm =>
    refine ⟨m.visibility.keyword ++ " " ++ ((δ.modifier? d.isFinal m).map (· ++ " ")).getD "" ++ δ.returnType m.result,
      "(" ++ δ.params m.params ++ ")" ++ "", ?_, .inr (.inr ⟨_, _, rfl⟩)⟩
    simp only [Member.header, Dialect.methodHeader, Dialect.signature, writtenName, hm, String.append_assoc,
      String.append_empty, Bool.false_eq_true, if_false]
  | @constructor c hm hc =>
    refine ⟨m.visibility.keyword, "(" ++ δ.params m.params ++ ")" ++
      (c.delegation.map fun g => Dialect.delegationClause (g.call δ)).getD "", ?_, .inr (.inr ⟨_, _, rfl⟩)⟩
    simp only [Member.header, ConstructorText.header, hc.head, Dialect.constructorHeader, writtenName, hm,
      Option.getD_none, String.append_assoc, String.append_empty, if_true]

theorem declares_initializerHeader : Declares δ.initializerHeader δ.initializerMethod :=
  ⟨Visibility.priv.keyword ++ " " ++ δ.voidType, "()", rfl, .inr (.inr ⟨"", "", rfl⟩)⟩

theorem namesWritten {t : Table} {l : Listing} (hclass : d.isInterface = false) (h : d.render δ t = .ok l) :
    ∃ o, d.WrittenAs δ t l o ∧ d.NamesWritten δ o := by
  obtain ⟨o, ho⟩ := render_writtenAs hclass h
  obtain ⟨members, rfl, hmembers⟩ := outline_written ho.outline
  refine ⟨_, ho, ?_, ?_, ?_⟩
  · rw [outlineOf, List.forall₂_map_right_iff, List.forall₂_same]
    exact fun f _ => declares_fieldLine f
  · exact hmembers.imp fun _ _ => declares_header
  · refine ⟨declares_initializerHeader, ?_⟩
    rw [← hasDeferred_iff]
    cases hd : d.hasDeferred δ <;> simp [outlineOf, hd]

section CSharp

variable {indent : Indent} {policy : InitPolicy} {f : Field} {m : Method}

theorem writtenName_eq (m : Method) : d.writtenName (.csharp indent policy) m =
    (Dialect.csharp indent policy).identifier (d.plainName (.csharp indent policy) m) := by
  rw [writtenName, plainName, Dialect.methodName]
  split_ifs <;> rfl

theorem writtenName_eq_methodName (hm : m.isConstructor = false) : d.writtenName δ m = δ.methodName m := by
  simp [writtenName, hm]

theorem plainName_of_not_accessor (hm : m.isConstructor = false) (ha : m.isAccessor = false) :
    d.plainName δ m = m.name := by
  rw [Method.isAccessor, Bool.or_eq_false_iff] at ha
  simp [plainName, hm, ha.1, ha.2]

theorem plainName_of_accessor (indent : Indent) (policy : InitPolicy) (hm : m.isConstructor = false)
    (ha : m.isAccessor = true) : ∃ mark, (mark = "get" ∨ mark = "set") ∧
      d.plainName (.csharp indent policy) m = mark ++ Text.capitalize m.name := by
  cases hg : m.flags.isGetter with
  | true => exact ⟨"get", .inl rfl, by simp [plainName, hm, hg, Dialect.csharp]⟩
  | false =>
    have hs : m.flags.isSetter = true := by simpa [Method.isAccessor, hg] using ha
    exact ⟨"set", .inr rfl, by simp [plainName, hm, hg, hs, Dialect.csharp]⟩

theorem identifier_eq_methodName_iff (hm : m.isConstructor = false) (hne : f.name ≠ m.name) :
    (Dialect.csharp indent policy).identifier f.name = (Dialect.csharp indent policy).methodName m ↔
      m.isAccessor = true ∧ f.name = d.plainName (.csharp indent policy) m ∨
      m.isAccessor = false ∧ Dialect.CSharp.naming.Clash f.name m.name := by
  rw [← writtenName_eq_methodName (d := d) hm, writtenName_eq]
  cases ha : m.isAccessor with
  | true =>
    obtain ⟨mark, hmark, hname⟩ := plainName_of_accessor (d := d) indent policy hm ha
    rw [Dialect.CSharp.identifier_eq_iff_of_plain (hname ▸ Dialect.CSharp.plain_append hmark _)]
    simp
  | false =>
    rw [plainName_of_not_accessor hm ha, Dialect.CSharp.identifier_eq_iff, Naming.spelledAlike_iff_clash hne]
    simp

theorem initializerMethod_eq_identifier_iff (name : String) :
    (Dialect.csharp indent policy).initializerMethod = (Dialect.csharp indent policy).identifier name ↔
      name = (Dialect.csharp indent policy).initializerMethod :=
  Dialect.CSharp.eq_identifier_iff_of_plain (b := "__internalInitializeFields") (by decide +kernel) name

theorem initializerMethod_eq_writtenName_iff (m : Method) :
    (Dialect.csharp indent policy).initializerMethod = d.writtenName (.csharp indent policy) m ↔
      (m.isConstructor = false → m.isAccessor = false) ∧
        d.plainName (.csharp indent policy) m = (Dialect.csharp indent policy).initializerMethod := by
  rw [writtenName_eq, initializerMethod_eq_identifier_iff]
  refine ⟨fun h => ⟨fun hm => ?_, h⟩, And.right⟩
  -- the name of an accessor begins with another letter
  rw [Bool.eq_false_iff]
  intro ha
  obtain ⟨mark, hmark, hname⟩ := plainName_of_accessor (d := d) indent policy hm ha
  have hhead := congrArg (fun name : String => name.toList.head?) (hname.symm.trans h)
  obtain rfl | rfl := hmark
  · simp [String.toList_append, Dialect.csharp] at hhead
  · simp [String.toList_append, Dialect.csharp] at hhead

/-- Of a class in which no two members are declared under one name, the members are written under names of their own
exactly if no field is named by a reserved word and another one by its escape, no field is named like an accessor is
written or differs from a method by an escape only, and, where initializers are deferred, nothing is named like the
initializer method. -/
theorem written_names_apart_iff (indent : Indent) (policy : InitPolicy) {t : Table} (hclass : d.isInterface = false)
    (hlint : Lint.duplicateMembers.check t d = []) :
    (∀ u l, d.render (.csharp indent policy) u = .ok l →
      ∃ o, d.WrittenAs (.csharp indent policy) u l o ∧ d.NamesWritten (.csharp indent policy) o) ∧
    (d.NamesApart (.csharp indent policy) ↔
      d.fields.Pairwise (fun f g => ¬Dialect.CSharp.naming.Clash f.name g.name) ∧
      (∀ f ∈ d.fields, ∀ m ∈ d.methods, m.isConstructor = false →
        ¬(m.isAccessor = true ∧ f.name = d.plainName (.csharp indent policy) m ∨
          m.isAccessor = false ∧ Dialect.CSharp.naming.Clash f.name m.name)) ∧
      (d.Defers (.csharp indent policy) →
        (∀ f ∈ d.fields, f.name ≠ "__internalInitializeFields") ∧
        ∀ m ∈ d.methods, ¬((m.isConstructor = false → m.isAccessor = false) ∧
          d.plainName (.csharp indent policy) m = "__internalInitializeFields"))) := by
  obtain ⟨hfields, hmethods⟩ := Lint.duplicateMembers_eq_nil_iff.1 hlint
  refine ⟨fun u l => namesWritten hclass, ?_⟩
  rw [namesApart_iff]
  refine and_congr ?_ (and_congr ?_ (imp_congr_right fun _ => and_congr ?_ ?_))
  · have hmeet {f g : Field} (hne : f.name ≠ g.name) : (Dialect.csharp indent policy).identifier f.name =
        (Dialect.csharp indent policy).identifier g.name ↔ Dialect.CSharp.naming.Clash f.name g.name := by
      rw [Dialect.CSharp.identifier_eq_iff, Naming.spelledAlike_iff_clash hne]
    exact ⟨hfields.imp₂ fun f g hne => mt (hmeet hne).2, hfields.imp₂ fun f g hne => mt (hmeet hne).1⟩
  · exact forall₄_congr fun f hf m hm => forall_congr' fun hc =>
      not_congr (identifier_eq_methodName_iff hc (hmethods f hf m hm hc))
  · exact forall₂_congr fun f _ => not_congr (initializerMethod_eq_identifier_iff f.name)
  · exact forall₂_congr fun m _ => not_congr (initializerMethod_eq_writtenName_iff m)

def gauge : Declaration where
  kind := .classKind none
  name := "Gauge"
  fields := [
    { type := .primitive .int, name := "class" },
    { type := .primitive .int, name := "getsize" },
    { type := .named ⟨"Point", none⟩, name := "internalInitializeFields", initializer := some "new Point()" }]
  methods := [{ flags := { isGetter := true }, name := "size" }]

theorem gauge_names_apart : Lint.duplicateMembers.check {} gauge = [] ∧ gauge.Defers .csharp ∧
    gauge.NamesApart .csharp ∧ ∃ l o, gauge.render .csharp {} = .ok l ∧ gauge.WrittenAs .csharp {} l o ∧
      gauge.NamesWritten .csharp o := by
  have hlint : Lint.duplicateMembers.check {} gauge = [] := by decide +kernel
  obtain ⟨l, hl⟩ : ∃ l, gauge.render .csharp {} = .ok l := exists_ok (by decide +kernel)
  obtain ⟨hwritten, hiff⟩ := written_names_apart_iff (d := gauge) .standard .deferConstructions rfl hlint
  obtain ⟨o, ho, hnames⟩ := hwritten {} l hl
  refine ⟨hlint, hasDeferred_iff.1 (by decide +kernel), hiff.2 ⟨?_, ?_, fun _ => ⟨?_, ?_⟩⟩, l, o, hl, ho, hnames⟩
  · decide +kernel
  · decide +kernel
  · decide +kernel
  · decide +kernel

/-- A getter beside a field that is named like it is written, a reserved word beside its escape, and a deferred field
that is named like the initializer method. -/
def panel : Declaration where
  kind := .classKind none
  name := "Panel"
  fields := [
    { type := .primitive .int, name := "class" },
    { type := .primitive .int, name := "@class" },
    { type := .primitive .int, name := "getSize" },
    { type := .named ⟨"Point", none⟩, name := "__internalInitializeFields", initializer := some "new Point()" }]
  methods := [{ flags := { isGetter := true }, name := "size" }]

theorem panel_names_meet : Lint.duplicateMembers.check {} panel = [] ∧ (∃ l, panel.render .csharp {} = .ok l) ∧
    (¬panel.fields.Pairwise fun f g => Dialect.csharp.identifier f.name ≠ Dialect.csharp.identifier g.name) ∧
    (∃ f ∈ panel.fields, ∃ m ∈ panel.methods, m.isConstructor = false ∧
      Dialect.csharp.identifier f.name = Dialect.csharp.methodName m) ∧
    panel.Defers .csharp ∧
    ∃ f ∈ panel.fields, Dialect.csharp.initializerMethod = Dialect.csharp.identifier f.name := by
  refine ⟨by decide +kernel, exists_ok (by decide +kernel), by decide +kernel, by decide +kernel,
    hasDeferred_iff.1 (by decide +kernel), by decide +kernel⟩

end CSharp

end Declaration

end Stencil
