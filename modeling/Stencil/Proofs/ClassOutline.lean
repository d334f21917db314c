import Stencil.Proofs.ConstructorBlocks
import Stencil.Proofs.Outcomes
import Stencil.Proofs.Rows
import Stencil.Proofs.WrittenLines

/-! Outlines of classes: the members of a class as they are written, before they become lines. Main
statement: the source text of a class holds the rows of its outline and nothing else. -/
namespace Stencil

structure ConstructorText where
  head : String
  delegation : Option Delegation
  block : List Statement
deriving DecidableEq, Repr

inductive Member
  | method (header : String) (body : Listing)
  | constructor (c : ConstructorText)
deriving DecidableEq, Repr

structure ClassOutline where
  header : String
  delegates : List String
  fields : List String
  initializer : Option (List String)
  members : List Member
deriving DecidableEq, Repr

namespace ConstructorText

variable (δ : Dialect) (c : ConstructorText)

def header : String := c.head ++ (c.delegation.map fun g => Dialect.delegationClause (g.call δ)).getD ""

def rows : List Row := Row.block δ.delimiters (c.header δ) ((c.block.map Statement.line).map Row.ofLine)

def callsSelf : Bool :=
  match c.delegation with
  | some (.sameClass _) => true
  | _ => false

end ConstructorText

namespace Member

def rows (δ : Dialect) : Member → List Row
  | method header body => Row.block δ.delimiters header (body.allLines.map Row.ofLine)
  | constructor c => c.rows δ

def constructor? : Member → Option ConstructorText
  | method _ _ => none
  | constructor c => some c

end Member

namespace ClassOutline

variable (δ : Dialect) (o : ClassOutline)

def sections : List (List Row) :=
  (if o.delegates.isEmpty then [] else [o.delegates.map (.text 0)]) ++
  (if o.fields.isEmpty then [] else [o.fields.map (.text 0)]) ++
  (o.initializer.map fun lines => Row.block δ.delimiters δ.initializerHeader (lines.map (.text 0))).toList ++
  o.members.map (Member.rows δ)

def rows : List Row := Row.block δ.delimiters o.header (Row.separated (o.sections δ))

def constructors : List ConstructorText := o.members.filterMap Member.constructor?

end ClassOutline

namespace Declaration

variable (δ : Dialect) (d : Declaration)

def hasDeferred : Bool := !(d.deferredFields δ.policy).isEmpty

def constructorText (m : Method) : Except EmitError ConstructorText :=
  (ConstructorBody.takeDelegation d.qualifiedName m.body.lines).map fun (delegation, rest) => {
    head := δ.constructorHeader d.name m none
    delegation
    block := ConstructorBody.markedLines δ (d.hasDeferred δ) rest ++
      (m.body.pending.map (Line.mk m.body.depth)).toList.map .own }

def member (m : Method) : Except EmitError Member :=
  if m.isConstructor then (d.constructorText δ m).map .constructor
  else .ok (.method (δ.methodHeader d.isFinal m) m.body)

def outlineOf (members : List Member) : ClassOutline where
  header := δ.classLine d
  delegates := d.delegates.map δ.delegateLine
  fields := d.fields.map δ.fieldLine
  initializer :=
    if d.hasDeferred δ then some ((d.deferredFields δ.policy).filterMap δ.assignmentLine?) else none
  members

def outline : Except EmitError ClassOutline := (d.methods.mapM (d.member δ)).map (d.outlineOf δ)

def fileHead (imports : Imports) : List Row :=
  Row.paragraph δ.preamble ++
  Row.paragraph (imports.packages.map fun p => δ.importStatement (δ.namespaceName p))

def fileRows (imports : Imports) (rows : List Row) : List Row :=
  fileHead δ imports ++ (if d.package = "" then rows
    else Row.block δ.delimiters (Dialect.namespaceHeader (δ.namespaceName d.package)) rows)

/-- The listing is the file of a class with this outline. -/
structure WrittenAs (t : Table) (l : Listing) (o : ClassOutline) : Prop where
  outline : d.outline δ = .ok o
  lines : ∃ imports, d.imports t = .ok imports ∧
    l.lines = (d.fileRows δ imports (o.rows δ)).map (Row.line 0)
  finished : l.pending = none ∧ l.depth = 0

variable {δ d}

theorem constructorHeader_eq (name : String) (m : Method) (clause : Option String) :
    δ.constructorHeader name m clause = δ.constructorHeader name m none ++ clause.getD "" := by
  simp [Dialect.constructorHeader]

theorem allLines_marked (body : Listing) (block : List Statement) :
    ({ body with lines := block.map Statement.line } : Listing).allLines =
      (block ++ (body.pending.map (Line.mk body.depth)).toList.map Statement.own).map Statement.line := by
  simp [Listing.allLines]

theorem appends_constructor {m : Method} {c : ConstructorBody}
    (h : ConstructorBody.ofListing δ d.qualifiedName m.body (d.hasDeferred δ) = .ok c) :
    ∃ text, d.constructorText δ m = .ok text ∧
      Appends δ.delimiters (d.writeConstructor δ m c) (text.rows δ) := by
  rw [ConstructorBody.ofListing_eq, map_eq_ok] at h
  obtain ⟨⟨g, rest⟩, hrest, rfl⟩ := h
  refine ⟨_, map_eq_ok.2 ⟨_, hrest, rfl⟩, ?_⟩
  simp only [ConstructorText.rows, ConstructorText.header, ← constructorHeader_eq, ← allLines_marked]
  rw [writeConstructor_eq]
  exact (Appends.splice _).writeBlock _

theorem appends_methodSection {m : Method} {write : Listing → Listing}
    (h : d.methodSection δ m = .ok write) :
    ∃ text, d.member δ m = .ok text ∧ Appends δ.delimiters write (text.rows δ) := by
  cases hc : m.isConstructor with
  | false =>
    simp only [methodSection, hc, Bool.false_eq_true, if_false, pure_eq_ok] at h
    subst h
    refine ⟨.method (δ.methodHeader d.isFinal m) m.body, by simp [member, hc], ?_⟩
    rw [writeMethod_eq]
    exact (Appends.splice m.body).writeBlock _
  | true =>
    simp only [methodSection, hc, if_true, bind_eq_ok, pure_eq_ok] at h
    obtain ⟨c, hbody, rfl⟩ := h
    obtain ⟨text, htext, happ⟩ := appends_constructor hbody
    exact ⟨.constructor text, by simp [member, hc, htext, Except.map], happ⟩

theorem appends_methodSections {writers : List (Listing → Listing)}
    (h : d.methods.mapM (d.methodSection δ) = .ok writers) :
    ∃ members, d.methods.mapM (d.member δ) = .ok members ∧
      List.Forall₂ (Appends δ.delimiters) writers (members.map (Member.rows δ)) := by
  simp only [mapM_eq_ok] at h ⊢
  generalize d.methods = methods at h ⊢
  induction h with
  | nil => exact ⟨[], .nil, .nil⟩
  | cons hm _ ih =>
    obtain ⟨text, htext, happ⟩ := appends_methodSection hm
    obtain ⟨members, hmembers, hrest⟩ := ih
    exact ⟨text :: members, .cons htext hmembers, .cons happ hrest⟩

theorem appends_initializer (δ : Dialect) (d : Declaration) :
    Appends δ.delimiters (d.writeInitializer δ) (Row.block δ.delimiters δ.initializerHeader
      (((d.deferredFields δ.policy).filterMap δ.assignmentLine?).map (.text 0))) :=
  (Appends.writeLines _).writeBlock _

theorem appends_sections {writers : List (Listing → Listing)} {members : List Member}
    (h : List.Forall₂ (Appends δ.delimiters) writers (members.map (Member.rows δ))) :
    List.Forall₂ (Appends δ.delimiters) (d.leadingSections δ ++ writers)
      ((d.outlineOf δ members).sections δ) := by
  rw [leadingSections_eq]
  refine List.rel_append (List.rel_append (List.rel_append ?_ ?_) ?_) h
  · cases hd : d.delegates with
    | nil => simp [outlineOf, hd]
    | cons g gs => simpa [outlineOf, hd] using Appends.writeLines (List.map δ.delegateLine (g :: gs))
  · cases hf : d.fields with
    | nil => simp [outlineOf, hf]
    | cons f fs => simpa [outlineOf, hf] using Appends.writeLines (List.map δ.fieldLine (f :: fs))
  · cases hi : d.deferredFields δ.policy with
    | nil => simp [outlineOf, hasDeferred, hi]
    | cons f fs =>
      have hw := appends_initializer δ d
      simpa [outlineOf, hasDeferred, hi] using hw

theorem appends_class {l l' : Listing} (h : d.writeClass δ l = .ok l') (hp : l.pending = none)
    (hd : l.delimiters = δ.delimiters) :
    ∃ o, d.outline δ = .ok o ∧ l' = { l with lines := l.lines ++ (o.rows δ).map (Row.line l.depth) } := by
  simp only [writeClass_eq, bind_eq_ok, pure_eq_ok] at h
  obtain ⟨writers, hw, rfl⟩ := h
  obtain ⟨members, hm, hrows⟩ := appends_methodSections hw
  refine ⟨d.outlineOf δ members, map_eq_ok.2 ⟨members, hm, rfl⟩, ?_⟩
  exact (Appends.writeSections (appends_sections hrows)).writeBlock (δ.classLine d) l hp hd

theorem writeFile_rows {imports : Imports} {l : Listing} {P : List Row → Prop}
    (htype : ∀ start written : Listing, start.pending = none → start.delimiters = δ.delimiters →
      d.writeType δ start = .ok written → ∃ rows, P rows ∧
        written = { start with lines := start.lines ++ rows.map (Row.line start.depth) })
    (h : d.writeFile δ imports = .ok l) :
    ∃ rows, P rows ∧ l = {
      lines := (d.fileRows δ imports rows).map (Row.line 0), delimiters := δ.delimiters } := by
  let start : Listing := { lines := (fileHead δ imports).map (Row.line 0), delimiters := δ.delimiters }
  have hstart : (({ delimiters := δ.delimiters } : Listing).writeParagraph δ.preamble).writeParagraph
      (imports.packages.map fun p => δ.importStatement (δ.namespaceName p)) = start :=
    (Appends.writeParagraph _).comp (Appends.writeParagraph _) { delimiters := δ.delimiters } rfl rfl
  simp only [writeFile, bind_eq_ok, hstart] at h
  obtain ⟨_, _, h⟩ := h
  by_cases hpkg : d.package = ""
  · rw [if_pos hpkg] at h
    obtain ⟨rows, hrows, rfl⟩ := htype start l rfl rfl h
    exact ⟨rows, hrows, by simp [fileRows, hpkg, start]⟩
  · rw [if_neg hpkg, bind_eq_ok] at h
    obtain ⟨inner, hinner, hclose⟩ := h
    obtain ⟨rows, hrows, rfl⟩ := htype _ inner rfl rfl hinner
    have hblock := (Appends.rows rows).writeBlock
      (Dialect.namespaceHeader (δ.namespaceName d.package)) start rfl rfl
    rw [pure_eq_ok] at hclose
    refine ⟨rows, hrows, ?_⟩
    rw [← hclose]
    refine hblock.trans ?_
    simp [fileRows, hpkg, start]

theorem writeFile_class {imports : Imports} {l : Listing} (hclass : d.isInterface = false)
    (h : d.writeFile δ imports = .ok l) :
    ∃ o, d.outline δ = .ok o ∧ l = {
      lines := (d.fileRows δ imports (o.rows δ)).map (Row.line 0), delimiters := δ.delimiters } := by
  have htype (start written : Listing) (hp : start.pending = none)
      (hd : start.delimiters = δ.delimiters) (hw : d.writeType δ start = .ok written) :
      ∃ rows, (∃ o, d.outline δ = .ok o ∧ rows = o.rows δ) ∧
        written = { start with lines := start.lines ++ rows.map (Row.line start.depth) } := by
    simp only [writeType, hclass, Bool.false_eq_true, if_false] at hw
    obtain ⟨o, ho, hwritten⟩ := appends_class hw hp hd
    exact ⟨_, ⟨o, ho, rfl⟩, hwritten⟩
  obtain ⟨_, ⟨o, ho, rfl⟩, hl⟩ := writeFile_rows htype h
  exact ⟨o, ho, hl⟩

theorem render_writtenAs {t : Table} {l : Listing} (hclass : d.isInterface = false)
    (h : d.render δ t = .ok l) : ∃ o, d.WrittenAs δ t l o := by
  rw [render, bind_eq_ok] at h
  obtain ⟨imports, himports, h⟩ := h
  obtain ⟨o, ho, rfl⟩ := writeFile_class hclass h
  exact ⟨o, ho, ⟨imports, himports, rfl⟩, rfl, rfl⟩

end Declaration

end Stencil
