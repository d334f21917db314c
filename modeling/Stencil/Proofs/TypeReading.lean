import Stencil.Proofs.DeclarationFormat
import Stencil.Proofs.HandleErasure
import Stencil.Proofs.ImportSets
import Stencil.Proofs.TextPieces

/-! Types read back from their text in C#. The text is that of a term: a word, alone or with arguments in angle brackets.
Main statement: where the names of classes are legible, two types have the same text exactly if they are equal but for
handles. -/
namespace Stencil

inductive TypeTerm
  | mk (head : String) (args : List TypeTerm)

namespace TypeTerm

def isMark (c : Char) : Bool := c == '<' || c == '>' || c == ','

mutual
def text : TypeTerm → List Char
  | mk head args => head.toList ++ argsText args

def argsText : List TypeTerm → List Char
  | [] => []
  | t :: ts => '<' :: (t.text ++ moreText ts)

def moreText : List TypeTerm → List Char
  | [] => ['>']
  | t :: ts => ',' :: ' ' :: (t.text ++ moreText ts)
end

inductive Plain : TypeTerm → Prop
  | mk {head : String} {args : List TypeTerm} (hhead : ∀ c ∈ head.toList, isMark c = false)
      (hargs : ∀ t ∈ args, Plain t) : Plain (.mk head args)

/-- What may follow a term: nothing, the next argument or the bracket that closes the arguments. -/
def Stops (rest : List Char) : Prop := ∀ c ∈ rest.head?, c = ',' ∨ c = '>'

def Prevails (a : TypeTerm) : Prop := ∀ b r s, b.Plain → Stops r → Stops s → a.text ++ r = b.text ++ s → a = b ∧ r = s

section Reading

variable {r s : List Char}

theorem stops_moreText (ts : List TypeTerm) (r : List Char) : Stops (moreText ts ++ r) := by
  cases ts with
  | nil => simp [Stops, moreText]
  | cons t ts => simp [Stops, moreText]

theorem Stops.isMark_argsText (hr : Stops r) (ts : List TypeTerm) :
    ∀ c ∈ (argsText ts ++ r).head?, isMark c = true := by
  cases ts with
  | nil =>
    intro c hc
    cases hr c hc with
    | inl h => rw [h]; rfl
    | inr h => rw [h]; rfl
  | cons t ts => simp [argsText, isMark]

theorem Stops.ne_argsText_append (hr : Stops r) (t : TypeTerm) (ts : List TypeTerm) (s : List Char) :
    r ≠ argsText (t :: ts) ++ s := by
  intro h
  have hopen := hr '<' (by rw [h]; rfl)
  exact absurd hopen (by decide)

theorem moreText_append_inj {as bs : List TypeTerm} (has : ∀ a ∈ as, a.Prevails) (hbs : ∀ b ∈ bs, b.Plain)
    (h : moreText as ++ r = moreText bs ++ s) : as = bs ∧ r = s := by
  induction as generalizing bs with
  | nil =>
    cases bs with
    | nil => exact ⟨rfl, (List.cons.inj h).2⟩
    | cons b bs => exact absurd (List.cons.inj h).1 (by decide)
  | cons a as ih =>
    cases bs with
    | nil => exact absurd (List.cons.inj h).1 (by decide)
    | cons b bs =>
      rw [List.forall_mem_cons] at has hbs
      simp only [moreText, List.cons_append, List.append_assoc, List.cons.injEq, true_and] at h
      obtain ⟨hfirst, hmore⟩ := has.1 b _ _ hbs.1 (stops_moreText as r) (stops_moreText bs s) h
      obtain ⟨hothers, hrest⟩ := ih has.2 hbs.2 hmore
      exact ⟨by rw [hfirst, hothers], hrest⟩

theorem argsText_append_inj {as bs : List TypeTerm} (has : ∀ a ∈ as, a.Prevails) (hbs : ∀ b ∈ bs, b.Plain)
    (hr : Stops r) (hs : Stops s) (h : argsText as ++ r = argsText bs ++ s) : as = bs ∧ r = s := by
  cases as with
  | nil =>
    cases bs with
    | nil => exact ⟨rfl, h⟩
    | cons b bs => exact absurd h (hr.ne_argsText_append b bs s)
  | cons a as =>
    cases bs with
    | nil => exact absurd h.symm (hs.ne_argsText_append a as r)
    | cons b bs =>
      rw [List.forall_mem_cons] at has hbs
      simp only [argsText, List.cons_append, List.append_assoc, List.cons.injEq, true_and] at h
      obtain ⟨hfirst, hmore⟩ := has.1 b _ _ hbs.1 (stops_moreText as r) (stops_moreText bs s) h
      obtain ⟨hothers, hrest⟩ := moreText_append_inj has.2 hbs.2 hmore
      exact ⟨by rw [hfirst, hothers], hrest⟩

theorem Plain.prevails {a : TypeTerm} (h : a.Plain) : a.Prevails := by
  induction h with
  | mk hhead _ ih =>
    intro b r s hb hr hs heq
    cases hb with
    | mk hhead' hargs' =>
      rw [text, text, List.append_assoc, List.append_assoc] at heq
      obtain ⟨hsame, htail⟩ :=
        Text.append_inj_of_boundary hhead hhead' (hr.isMark_argsText _) (hs.isMark_argsText _) heq
      obtain ⟨hargs, hrest⟩ := argsText_append_inj ih hargs' hr hs htail
      exact ⟨by rw [String.toList_inj.1 hsame, hargs], hrest⟩

theorem Plain.eq_of_text_eq {a b : TypeTerm} (ha : a.Plain) (hb : b.Plain) (h : a.text = b.text) : a = b := by
  have hnothing : Stops [] := by simp [Stops]
  exact (ha.prevails b [] [] hb hnothing hnothing (by rw [h])).1

end Reading

theorem moreText_eq (ts : List TypeTerm) : moreText ts = (ts.map text).flatMap ([',', ' '] ++ ·) ++ ['>'] := by
  induction ts with
  | nil => rfl
  | cons t ts ih => simp [moreText, ih]

theorem argsText_eq {ts : List TypeTerm} (h : ts ≠ []) :
    argsText ts = '<' :: ([',', ' '].intercalate (ts.map text) ++ ['>']) := by
  cases ts with
  | nil => exact absurd rfl h
  | cons t ts => rw [argsText, moreText_eq, List.map_cons, Text.intercalate_cons_eq, List.append_assoc]

end TypeTerm

namespace TypeExpr

theorem mapParamRefs_eq_map (g : Ref → Ref) (ts : List TypeExpr) : mapParamRefs g ts = ts.map (·.mapRefs g) := by
  induction ts with
  | nil => rfl
  | cons t ts ih => rw [mapParamRefs, ih, List.map_cons]

theorem forall_refs_function {P : Ref → Prop} {result : Option TypeExpr} {params : List TypeExpr} :
    (∀ r ∈ (function result params).refs, P r) ↔
      (∀ t ∈ result, ∀ r ∈ t.refs, P r) ∧ ∀ t ∈ params, ∀ r ∈ t.refs, P r := by
  simp only [mem_refs_iff_holds, holds_function_iff]
  grind

end TypeExpr

/-- A linked reference whose name is told apart from all else in a type. -/
structure Ref.Legible (r : Ref) : Prop where
  linked : r.handle.isSome = true
  chars : ∀ c ∈ r.name.toList, TypeTerm.isMark c = false ∧ c ≠ '@'
  ne_action : r.name ≠ "Action"
  ne_object : r.name ≠ "Object"

namespace Dialect.CSharp

mutual
/-- A type as a term. The result of a function is its last argument. -/
def term : TypeExpr → TypeTerm
  | .primitive p => .mk (primitive p) []
  | .named r => .mk (csharp.refName r) []
  | .vector t => .mk "Vector" [term t]
  | .function none params => .mk "Action" (terms params)
  | .function (some result) params => .mk "Func" (terms params ++ [term result])

def terms : List TypeExpr → List TypeTerm
  | [] => []
  | t :: ts => term t :: terms ts
end

def unescape (word : String) : String :=
  match word.toList with
  | '@' :: name => .ofList name
  | _ => word

def readWord (word : String) : TypeExpr :=
  match [.int, .uint, .number, .boolean, .any].find? fun p => primitive p = word with
  | some p => .primitive p
  | none => if word = "Action" then .function none [] else .named ⟨unescape word, some ⟨0⟩⟩

mutual
def read : TypeTerm → TypeExpr
  | .mk head args =>
    match readAll args with
    | [] => readWord head
    | t :: ts =>
      if head = "Vector" then .vector t
      else if head = "Func" then .function (t :: ts).getLast? (t :: ts).dropLast
      else .function none (t :: ts)

def readAll : List TypeTerm → List TypeExpr
  | [] => []
  | t :: ts => read t :: readAll ts
end

theorem terms_eq_map (ts : List TypeExpr) : terms ts = ts.map term := by
  induction ts with
  | nil => rfl
  | cons t ts ih => rw [terms, ih, List.map_cons]

theorem readAll_eq_map (ts : List TypeTerm) : readAll ts = ts.map read := by
  induction ts with
  | nil => rfl
  | cons t ts ih => rw [readAll, ih, List.map_cons]

theorem types_eq_map (δ : Dialect) (ts : List TypeExpr) : δ.types ts = ts.map δ.type := by
  induction ts with
  | nil => rfl
  | cons t ts ih => rw [types, ih, List.map_cons]

theorem applied_toList (head : String) {texts : List String} {args : List TypeTerm} (hne : args ≠ [])
    (h : texts.map String.toList = args.map TypeTerm.text) :
    (head ++ "<" ++ ", ".intercalate texts ++ ">").toList = (TypeTerm.mk head args).text := by
  simp [TypeTerm.text, TypeTerm.argsText_eq hne, String.toList_append, String.toList_intercalate, h]

theorem type_toList (indent : Indent) (policy : InitPolicy) (t : TypeExpr) :
    ((csharp indent policy).type t).toList = (term t).text := by
  induction t using TypeExpr.induct with
  | primitive p => exact (List.append_nil _).symm
  | named r => exact (List.append_nil _).symm
  | vector t ih =>
    have htexts : [(csharp indent policy).type t].map String.toList = [term t].map TypeTerm.text := by simp [ih]
    rw [term, ← applied_toList "Vector" (by simp) htexts, String.intercalate_singleton]
    rfl
  | function result params hresult hparams =>
    have htexts : ((csharp indent policy).types params).map String.toList = (terms params).map TypeTerm.text := by
      rw [types_eq_map, terms_eq_map, List.map_map, List.map_map]
      exact List.map_congr_left hparams
    cases result with
    | none =>
      cases params with
      | nil => exact (List.append_nil _).symm
      | cons t ts =>
        rw [term, ← applied_toList "Action" (by simp [terms]) htexts]
        rfl
    | some t =>
      have hall : ((csharp indent policy).types params ++ [(csharp indent policy).type t]).map String.toList =
          (terms params ++ [term t]).map TypeTerm.text := by
        rw [List.map_append, List.map_append, htexts, List.map_singleton, List.map_singleton, hresult t rfl]
      rw [term, ← applied_toList "Func" (by simp) hall]
      rfl

section Legible

variable {r : Ref} {t : TypeExpr}

theorem refName_of_legible (h : r.Legible) : csharp.refName r = naming.safe r.name := by
  obtain ⟨place, hplace⟩ := Option.isSome_iff_exists.1 h.linked
  rw [refName, hplace]
  rfl

theorem refName_cases (h : r.Legible) : csharp.refName r = "@" ++ r.name ∨
    csharp.refName r = r.name ∧ r.name ∉ reserved := by
  rw [refName_of_legible h, Naming.safe]
  by_cases hreserved : r.name ∈ reserved
  · exact .inl (if_pos (by simpa [Naming.isReserved, naming] using hreserved))
  · exact .inr ⟨if_neg (by simpa [Naming.isReserved, naming] using hreserved), hreserved⟩

theorem unescape_refName (h : r.Legible) : unescape (csharp.refName r) = r.name := by
  cases refName_cases h with
  | inl hescaped => simp [hescaped, unescape, String.toList_append]
  | inr hkept =>
    rw [hkept.1, unescape]
    split
    · next name hname => exact absurd rfl (h.chars '@' (by rw [hname]; exact List.mem_cons_self)).2
    · rfl

theorem refName_ne (h : r.Legible) (p : Primitive) : csharp.refName r ≠ "Action" ∧ primitive p ≠ csharp.refName r := by
  cases refName_cases h with
  | inl hescaped =>
    have hhead : (csharp.refName r).toList.head? = some '@' := by simp [hescaped, String.toList_append]
    constructor
    · intro heq
      rw [heq] at hhead
      exact absurd hhead (by decide)
    · intro heq
      rw [← heq] at hhead
      cases p <;> exact absurd hhead (by decide)
  | inr hkept =>
    rw [hkept.1]
    refine ⟨h.ne_action, fun heq => ?_⟩
    cases p with
    | any => exact h.ne_object heq.symm
    | _ => exact hkept.2 (heq ▸ by decide)

theorem readWord_refName (h : r.Legible) : readWord (csharp.refName r) = .named r.unplaced := by
  have hnone : [Primitive.int, .uint, .number, .boolean, .any].find? (fun p => primitive p = csharp.refName r) = none := by
    simp [(refName_ne h _).2]
  obtain ⟨place, hplace⟩ := Option.isSome_iff_exists.1 h.linked
  simp [readWord, hnone, (refName_ne h .any).1, unescape_refName h, Ref.unplaced, hplace]

theorem isMark_refName (h : r.Legible) : ∀ c ∈ (csharp.refName r).toList, TypeTerm.isMark c = false := by
  have hname : ∀ c ∈ r.name.toList, TypeTerm.isMark c = false := fun c hc => (h.chars c hc).1
  cases refName_cases h with
  | inl hescaped =>
    rw [hescaped, String.toList_append]
    exact List.forall_mem_cons.2 ⟨rfl, hname⟩
  | inr hkept => rwa [hkept.1]

theorem plain_term (h : ∀ r ∈ t.refs, r.Legible) : (term t).Plain := by
  induction t using TypeExpr.induct with
  | primitive p => cases p <;> exact .mk (Text.forall_of_any_eq_false rfl) (by simp)
  | named r => exact .mk (isMark_refName (h r List.mem_cons_self)) (by simp)
  | vector t ih => exact .mk (Text.forall_of_any_eq_false rfl) (by simpa using ih h)
  | function result params hresult hparams =>
    obtain ⟨hr, hp⟩ := TypeExpr.forall_refs_function.1 h
    have hterms : ∀ x ∈ terms params, x.Plain := by
      rw [terms_eq_map, List.forall_mem_map]
      exact fun t ht => hparams t ht (hp t ht)
    cases result with
    | none => exact .mk (Text.forall_of_any_eq_false rfl) hterms
    | some t =>
      refine .mk (Text.forall_of_any_eq_false rfl) (List.forall_mem_append.2 ⟨hterms, ?_⟩)
      simpa using hresult t rfl (hr t rfl)

theorem read_term (h : ∀ r ∈ t.refs, r.Legible) : read (term t) = t.mapRefs Ref.unplaced := by
  induction t using TypeExpr.induct with
  | primitive p => cases p <;> rfl
  | named r => exact readWord_refName (h r List.mem_cons_self)
  | vector t ih => simp [term, read, readAll, TypeExpr.mapRefs, ih h]
  | function result params hresult hparams =>
    obtain ⟨hr, hp⟩ := TypeExpr.forall_refs_function.1 h
    have hread : readAll (terms params) = TypeExpr.mapParamRefs Ref.unplaced params := by
      rw [readAll_eq_map, terms_eq_map, List.map_map, TypeExpr.mapParamRefs_eq_map]
      exact List.map_congr_left fun t ht => hparams t ht (hp t ht)
    cases result with
    | none =>
      cases params with
      | nil => rfl
      | cons t ts =>
        rw [term, read, hread]
        rfl
    | some t =>
      have hall : readAll (terms params ++ [term t]) =
          TypeExpr.mapParamRefs Ref.unplaced params ++ [t.mapRefs Ref.unplaced] := by
        rw [readAll_eq_map, List.map_append, ← readAll_eq_map, hread, List.map_singleton, hresult t rfl (hr t rfl)]
      rw [term, read, hall]
      split
      · next hnil => simp at hnil
      · next first rest hcons =>
        rw [← hcons, if_neg (by decide), if_pos rfl, List.getLast?_concat, List.dropLast_concat]
        rfl

end Legible

/-- Types whose references are legible are written alike exactly if they are equal up to handles: they have the same
nesting, the same parameters, results in the same places and the same names. -/
theorem type_eq_iff_unplaced_eq {a b : TypeExpr} (ha : ∀ r ∈ a.refs, r.Legible) (hb : ∀ r ∈ b.refs, r.Legible)
    (indent : Indent) (policy : InitPolicy) :
    (csharp indent policy).type a = (csharp indent policy).type b ↔ a.mapRefs Ref.unplaced = b.mapRefs Ref.unplaced := by
  constructor
  · intro h
    have htext : (term a).text = (term b).text := by
      rw [← type_toList indent policy, h, type_toList]
    have hterm : term a = term b := (plain_term ha).eq_of_text_eq (plain_term hb) htext
    rw [← read_term ha, hterm, read_term hb]
  · intro h
    have hkept := (Target.csharp indent policy).overlooks_unplaced
    calc (csharp indent policy).type a
      _ = (csharp indent policy).type (a.mapRefs Ref.unplaced) := (hkept.type_mapRefs a).symm
      _ = (csharp indent policy).type (b.mapRefs Ref.unplaced) := by rw [h]
      _ = (csharp indent policy).type b := hkept.type_mapRefs b

def mapper (func cell : Handle) : TypeExpr :=
  .function (some (.vector (.named ⟨"event", some cell⟩))) [.named ⟨"Func", some func⟩, .function none [.primitive .any]]

theorem mapper_legible (func cell : Handle) : ∀ r ∈ (mapper func cell).refs, r.Legible := by
  intro r hr
  have hcases : r = ⟨"event", some cell⟩ ∨ r = ⟨"Func", some func⟩ := by
    simpa [mapper, TypeExpr.refs, TypeExpr.resultRefs, TypeExpr.paramRefs] using hr
  obtain rfl | rfl := hcases
  · exact ⟨rfl, by simp [TypeTerm.isMark], by simp, by simp⟩
  · exact ⟨rfl, by simp [TypeTerm.isMark], by simp, by simp⟩

theorem mapper_read_back : (∀ r ∈ (mapper ⟨0⟩ ⟨1⟩).refs, r.Legible) ∧ (∀ r ∈ (mapper ⟨4⟩ ⟨2⟩).refs, r.Legible) ∧
    csharp.type (mapper ⟨0⟩ ⟨1⟩) = "Func<Func, Action<Object>, Vector<@event>>" ∧
    (csharp.type (mapper ⟨0⟩ ⟨1⟩) = csharp.type (mapper ⟨4⟩ ⟨2⟩) ↔
      (mapper ⟨0⟩ ⟨1⟩).mapRefs Ref.unplaced = (mapper ⟨4⟩ ⟨2⟩).mapRefs Ref.unplaced) :=
  ⟨mapper_legible _ _, mapper_legible _ _, by decide +kernel,
    type_eq_iff_unplaced_eq (mapper_legible _ _) (mapper_legible _ _) .standard .deferConstructions⟩

/-- A class may not be called like the function type without parameters. -/
example : csharp.type (.named ⟨"Action", some ⟨0⟩⟩) = csharp.type (.function none []) := by decide +kernel

end Dialect.CSharp

end Stencil
