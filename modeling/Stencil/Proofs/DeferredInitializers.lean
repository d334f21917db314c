import Stencil.Dialect.Brace
import Stencil.Proofs.ClassOutline

/-! Where the initializers of a class go: beside the field, or into the initializer method, which every
constructor calls before its own statements. -/
namespace Stencil

namespace Field

def Deferred (policy : InitPolicy) (f : Field) : Prop :=
  ∃ e, f.initializer = some e ∧ f.isConst = false ∧ f.isStatic = false ∧ policy.allows e = false

theorem isDeferred_iff {policy : InitPolicy} {f : Field} : f.isDeferred policy = true ↔ f.Deferred policy := by
  cases hi : f.initializer with
  | none => simp [isDeferred, isInlineSafe, Deferred, hi]
  | some e => simp [isDeferred, isInlineSafe, Deferred, hi, and_assoc]

instance (policy : InitPolicy) : DecidablePred (Deferred policy) :=
  fun _ => decidable_of_iff _ isDeferred_iff

end Field

namespace Dialect

variable (δ : Dialect)

def fieldHead (f : Field) : String :=
  f.visibility.keyword ++ " " ++ δ.fieldModifier f ++ δ.type f.type ++ " " ++ δ.identifier f.name

def CarriesInitializer (f : Field) (line : String) : Prop :=
  ∃ e, f.initializer = some e ∧ line = δ.fieldHead f ++ " = " ++ e ++ ";"

def AssignsInitializer (f : Field) (line : String) : Prop :=
  ∃ e, f.initializer = some e ∧ line = δ.identifier f.name ++ " = " ++ e ++ ";"

variable {δ}

theorem fieldLine_eq (f : Field) : δ.fieldLine f = δ.fieldHead f ++ δ.inlineInitializer f ++ ";" := by
  simp [fieldLine, fieldHead]

theorem fieldLine_carries_iff (f : Field) :
    δ.CarriesInitializer f (δ.fieldLine f) ↔ f.initializer.isSome = true ∧ ¬f.Deferred δ.policy := by
  rw [← Field.isDeferred_iff, fieldLine_eq]
  cases hi : f.initializer with
  | none => simp [CarriesInitializer, hi]
  | some e =>
    cases hs : f.isInlineSafe δ.policy with
    | true => simp [CarriesInitializer, inlineInitializer, Field.isDeferred, hi, hs, String.append_assoc]
    | false =>
      -- the two lines differ in length
      simp only [CarriesInitializer, inlineInitializer, Field.isDeferred, hi, hs, Bool.false_eq_true, if_false]
      constructor
      · rintro ⟨e, -, heq⟩
        have hlen := congrArg String.length heq
        have hnone : "".length = 0 := rfl
        have hsign : " = ".length = 3 := rfl
        simp only [String.length_append] at hlen
        omega
      · simp

theorem fieldLine_bare (f : Field) (h : ¬δ.CarriesInitializer f (δ.fieldLine f)) :
    δ.fieldLine f = δ.fieldHead f ++ ";" := by
  rw [fieldLine_eq] at h ⊢
  cases hi : f.initializer with
  | none => simp [inlineInitializer, hi]
  | some e =>
    cases hs : f.isInlineSafe δ.policy with
    | true => simp [CarriesInitializer, inlineInitializer, hi, hs, String.append_assoc] at h
    | false => simp [inlineInitializer, hi, hs]

theorem assignments_of_deferred (fields : List Field) :
    List.Forall₂ δ.AssignsInitializer (fields.filter (·.Deferred δ.policy))
      ((fields.filter (·.isDeferred δ.policy)).filterMap δ.assignmentLine?) := by
  induction fields with
  | nil => exact .nil
  | cons f fields ih =>
    by_cases hf : f.Deferred δ.policy
    · obtain ⟨e, he, -⟩ := id hf
      have hb := Field.isDeferred_iff.2 hf
      simp only [List.filter_cons, hf, hb, decide_true, if_true, List.filterMap_cons, assignmentLine?, he,
        Option.map_some]
      exact .cons ⟨e, he, rfl⟩ ih
    · have hb : ¬f.isDeferred δ.policy = true := fun h => hf (Field.isDeferred_iff.1 h)
      simpa only [List.filter_cons, hf, hb, decide_false, Bool.false_eq_true, if_false] using ih

end Dialect

def ConstructorText.CallsInitializer (δ : Dialect) (c : ConstructorText) : Prop :=
  ∃ depth, .initCall ⟨depth, Dialect.callStatement δ.initializerMethod⟩ ∈ c.block

/-- However an instance is made, the initializer method runs. A class without constructors is left to the
implicit one, which calls nothing. -/
def ClassOutline.AlwaysInitializes (δ : Dialect) (o : ClassOutline) : Prop :=
  o.constructors ≠ [] ∧ ∀ c ∈ o.constructors, c.CallsInitializer δ

theorem CallLeads.append_own {call : String} {block : List Statement} (h : CallLeads call block)
    (xs : List Line) : CallLeads call (block ++ xs.map .own) := by
  obtain ⟨blanks, depth, rest, rfl, hb⟩ := h
  exact ⟨blanks, depth, rest ++ xs, by simp, hb⟩

theorem CallLeads.countP_isCall {call : String} {block : List Statement} (h : CallLeads call block) :
    block.countP Statement.isCall = 1 := by
  obtain ⟨blanks, depth, rest, rfl, -⟩ := h
  have hown (xs : List Line) : (xs.map Statement.own).countP Statement.isCall = 0 := by
    simp [List.countP_eq_zero]
  simp [List.countP_cons, hown]

namespace Declaration

variable (δ : Dialect) (d : Declaration)

def Defers : Prop := ∃ f ∈ d.fields, f.Deferred δ.policy

structure ConstructorWritten (m : Method) (c : ConstructorText) : Prop where
  head : c.head = δ.constructorHeader d.name m none
  remaining : MovesDelegation m.body c.delegation (c.block.filterMap Statement.own?)
  called : d.Defers δ → CallLeads (Dialect.callStatement δ.initializerMethod) c.block
  uncalled : ¬d.Defers δ → ∀ s ∈ c.block, s.isCall = false

inductive MemberWritten : Method → Member → Prop
  | method {m : Method} (h : m.isConstructor = false) :
      MemberWritten m (.method (δ.methodHeader d.isFinal m) m.body)
  | constructor {m : Method} {c : ConstructorText} (h : m.isConstructor = true)
      (hc : d.ConstructorWritten δ m c) : MemberWritten m (.constructor c)

variable {δ d}

theorem hasDeferred_iff : d.hasDeferred δ = true ↔ d.Defers δ := by
  simp [hasDeferred, deferredFields, Defers, Field.isDeferred_iff]

theorem constructorText_written {m : Method} {c : ConstructorText} (h : d.constructorText δ m = .ok c) :
    d.ConstructorWritten δ m c := by
  rw [constructorText, map_eq_ok] at h
  obtain ⟨⟨g, rest⟩, hrest, rfl⟩ := h
  refine ⟨rfl, ?_, fun hd => ?_, fun hd => ?_⟩
  · have hm := ConstructorBody.takeDelegation_moves hrest
    simpa [ConstructorBody.markedLines_own] using hm
  · simp only [ConstructorBody.markedLines, hasDeferred_iff.2 hd, if_true]
    exact (ConstructorBody.placeCall_leads _ rest).append_own _
  · have hn : d.hasDeferred δ = false := by simpa [← hasDeferred_iff] using hd
    simp only [ConstructorBody.markedLines, hn, Bool.false_eq_true, if_false]
    intro s hs
    rw [← List.map_append] at hs
    obtain ⟨x, -, rfl⟩ := List.mem_map.1 hs
    rfl

theorem member_written {m : Method} {text : Member} (h : d.member δ m = .ok text) :
    d.MemberWritten δ m text := by
  cases hc : m.isConstructor with
  | false =>
    simp only [member, hc, Bool.false_eq_true, if_false, Except.ok.injEq] at h
    subst h
    exact .method hc
  | true =>
    simp only [member, hc, if_true, map_eq_ok] at h
    obtain ⟨c, htext, rfl⟩ := h
    exact .constructor hc (constructorText_written htext)

theorem outline_written {o : ClassOutline} (h : d.outline δ = .ok o) :
    ∃ members, o = d.outlineOf δ members ∧ List.Forall₂ (d.MemberWritten δ) d.methods members := by
  rw [outline, map_eq_ok] at h
  obtain ⟨members, hm, rfl⟩ := h
  exact ⟨members, rfl, (mapM_eq_ok.1 hm).imp fun _ _ => member_written⟩

theorem filter_constructors {methods : List Method} {members : List Member}
    (h : List.Forall₂ (d.MemberWritten δ) methods members) :
    List.Forall₂ (d.ConstructorWritten δ) (methods.filter Method.isConstructor)
      (members.filterMap Member.constructor?) := by
  induction h with
  | nil => exact .nil
  | cons hm _ ih =>
    cases hm with
    | method hc => simpa only [List.filter_cons, hc, Bool.false_eq_true, if_false, List.filterMap_cons,
        Member.constructor?] using ih
    | constructor hc hw => simpa only [List.filter_cons, hc, if_true, List.filterMap_cons,
        Member.constructor?] using List.Forall₂.cons hw ih

theorem WrittenAs.constructors_written {t : Table} {l : Listing} {o : ClassOutline}
    (h : d.WrittenAs δ t l o) :
    List.Forall₂ (d.ConstructorWritten δ) (d.methods.filter Method.isConstructor) o.constructors := by
  obtain ⟨members, rfl, hmembers⟩ := outline_written h.outline
  exact filter_constructors hmembers

theorem WrittenAs.callLeads {t : Table} {l : Listing} {o : ClassOutline} (h : d.WrittenAs δ t l o)
    (hdefers : d.Defers δ) :
    ∀ c ∈ o.constructors, CallLeads (Dialect.callStatement δ.initializerMethod) c.block := by
  have hw := h.constructors_written
  generalize d.methods.filter Method.isConstructor = ms, o.constructors = cs at hw ⊢
  induction hw with
  | nil => simp
  | cons hc _ ih => exact List.forall_mem_cons.2 ⟨hc.called hdefers, ih⟩

/-- Fields, initializer method and constructors split the initializers in the same way: a field's line carries
its initializer unless it is deferred, the initializer method is there exactly if a field is deferred and
assigns the deferred fields in order, and every constructor begins with one call of it, or has none. -/
theorem initializers_placed_once {t : Table} {l : Listing} (hclass : d.isInterface = false)
    (h : d.render δ t = .ok l) :
    ∃ o, d.WrittenAs δ t l o ∧
      List.Forall₂ (fun f line =>
        (δ.CarriesInitializer f line ↔ f.initializer.isSome = true ∧ ¬f.Deferred δ.policy) ∧
        (¬δ.CarriesInitializer f line → line = δ.fieldHead f ++ ";")) d.fields o.fields ∧
      (o.initializer.isSome = true ↔ d.Defers δ) ∧
      (∀ lines ∈ o.initializer,
        List.Forall₂ δ.AssignsInitializer (d.fields.filter (·.Deferred δ.policy)) lines) ∧
      List.Forall₂ (d.MemberWritten δ) d.methods o.members := by
  obtain ⟨o, ho⟩ := render_writtenAs hclass h
  obtain ⟨members, rfl, hmembers⟩ := outline_written ho.outline
  refine ⟨_, ho, ?_, ?_, ?_, hmembers⟩
  · rw [outlineOf, List.forall₂_map_right_iff, List.forall₂_same]
    exact fun f _ => ⟨Dialect.fieldLine_carries_iff f, Dialect.fieldLine_bare f⟩
  · rw [← hasDeferred_iff]
    cases hd : d.hasDeferred δ <;> simp [outlineOf, hd]
  · intro lines hlines
    cases hd : d.hasDeferred δ with
    | false => simp [outlineOf, hd] at hlines
    | true =>
      simp only [outlineOf, hd, if_true, Option.mem_def, Option.some.injEq] at hlines
      subst hlines
      exact Dialect.assignments_of_deferred d.fields

def holder : Declaration where
  kind := .classKind none
  name := "Holder"
  fields := [
    { type := .named ⟨"Point", none⟩, name := "a", initializer := some "new Point()" },
    { type := .primitive .int, name := "b", initializer := some "5" }]
  methods := [
    { flags := { isConstructor := true }, name := "", params := [⟨.primitive .int, "n"⟩]
      body := .ofTexts ["this-call(n, 0);", "go();"] },
    { flags := { isConstructor := true }, name := ""
      params := [⟨.primitive .int, "n"⟩, ⟨.primitive .int, "m"⟩] }]

theorem holder_renders : ∃ l, holder.render .brace {} = .ok l := exists_ok (by decide +kernel)

theorem holder_defers : holder.Defers .brace := hasDeferred_iff.1 (by decide +kernel)

theorem holder_initializers_placed : holder.isInterface = false ∧ ∃ l o,
    holder.render .brace {} = .ok l ∧ holder.WrittenAs .brace {} l o ∧
    (o.initializer.isSome = true ↔ holder.Defers .brace) ∧
    List.Forall₂ (holder.MemberWritten .brace) holder.methods o.members := by
  obtain ⟨l, hl⟩ := holder_renders
  obtain ⟨o, ho, -, hinit, -, hmembers⟩ := initializers_placed_once rfl hl
  exact ⟨rfl, l, o, hl, ho, hinit, hmembers⟩

/-- Of a class with deferred fields every constructor runs the initializer method; every way of making an
instance does so exactly if the class declares a constructor at all. -/
theorem alwaysInitializes_iff {t : Table} {l : Listing} (hclass : d.isInterface = false)
    (h : d.render δ t = .ok l) (hdefers : d.Defers δ) :
    ∃ o, d.WrittenAs δ t l o ∧ (∀ c ∈ o.constructors, c.CallsInitializer δ) ∧
      (o.AlwaysInitializes δ ↔ ∃ m ∈ d.methods, m.isConstructor = true) := by
  obtain ⟨o, ho⟩ := render_writtenAs hclass h
  have hcalls : ∀ c ∈ o.constructors, c.CallsInitializer δ := by
    intro c hc
    obtain ⟨blanks, depth, rest, hblock, -⟩ := ho.callLeads hdefers c hc
    exact ⟨depth, by simp [hblock]⟩
  have hnone : o.constructors = [] ↔ ∀ m ∈ d.methods, ¬m.isConstructor = true := by
    rw [← List.length_eq_zero_iff, ← ho.constructors_written.length_eq, List.length_eq_zero_iff,
      List.filter_eq_nil_iff]
  refine ⟨o, ho, hcalls, ?_⟩
  rw [ClassOutline.AlwaysInitializes, and_iff_left hcalls, ne_eq, hnone]
  push Not
  rfl

theorem holder_always_initialized : holder.Defers .brace ∧ ∃ l o, holder.render .brace {} = .ok l ∧
    holder.WrittenAs .brace {} l o ∧ o.AlwaysInitializes .brace := by
  obtain ⟨l, hl⟩ := holder_renders
  obtain ⟨o, ho, -, hiff⟩ := alwaysInitializes_iff rfl hl holder_defers
  exact ⟨holder_defers, l, o, hl, ho, hiff.2 ⟨_, List.mem_cons_self, rfl⟩⟩

def box : Declaration where
  kind := .classKind none
  name := "Box"
  fields := [{ type := .named ⟨"Point", none⟩, name := "a", initializer := some "new Point()" }]

theorem box_never_initialized : box.isInterface = false ∧ box.Defers .brace ∧
    ∃ l o, box.render .brace {} = .ok l ∧ box.WrittenAs .brace {} l o ∧ ¬o.AlwaysInitializes .brace := by
  obtain ⟨l, hl⟩ : ∃ l, box.render .brace {} = .ok l := exists_ok (by decide +kernel)
  obtain ⟨o, ho⟩ := render_writtenAs rfl hl
  have hnone : o.constructors = [] := by simpa [box] using ho.constructors_written
  exact ⟨rfl, hasDeferred_iff.1 (by decide +kernel), l, o, hl, ho, fun h => h.1 hnone⟩

end Declaration

end Stencil
