import Stencil.Dialect.Brace
import Stencil.Proofs.ClassOutline

/-! Documents: the file of a declaration as the parts that it is made of. Main statement: what is written, step
by step, is the lines of the document, and nothing is left unfinished. -/
namespace Stencil

inductive TypeText
  | interfaceText (delegates : List String) (header : String) (signatures : List String)
  | classText (outline : ClassOutline)
deriving DecidableEq, Repr

structure Document where
  preamble : List String
  imports : List String
  namespaceLine : Option String
  type : TypeText
deriving DecidableEq, Repr

namespace TypeText

def rows (δ : Dialect) : TypeText → List Row
  | interfaceText delegates header signatures =>
    Row.paragraph delegates ++ Row.block δ.delimiters header (signatures.map (.text 0))
  | classText outline => outline.rows δ

def header : TypeText → String
  | interfaceText _ header _ => header
  | classText outline => outline.header

end TypeText

namespace Document

variable (δ : Dialect) (doc : Document)

def body : List Row :=
  match doc.namespaceLine with
  | none => doc.type.rows δ
  | some header => Row.block δ.delimiters header (doc.type.rows δ)

def rows : List Row := Row.paragraph doc.preamble ++ Row.paragraph doc.imports ++ doc.body δ

end Document

/-- The listing consists of these rows, at the outermost level, and no line of it is unfinished. -/
structure Listing.Holds (l : Listing) (rows : List Row) : Prop where
  lines : l.lines = rows.map (Row.line 0)
  pending : l.pending = none
  depth : l.depth = 0

namespace Declaration

variable (δ : Dialect) (d : Declaration)

def interfaceText : TypeText :=
  .interfaceText (d.delegates.map δ.delegateLine) (δ.interfaceLine d)
    ((d.methods.filter (!·.isConstructor)).map (δ.signature · ++ ";"))

def typeText : Except EmitError TypeText :=
  if d.isInterface then .ok (d.interfaceText δ) else (d.outline δ).map .classText

def documentOf (imports : Imports) (type : TypeText) : Document where
  preamble := δ.preamble
  imports := imports.packages.map fun p => δ.importStatement (δ.namespaceName p)
  namespaceLine :=
    if d.package = "" then none else some (Dialect.namespaceHeader (δ.namespaceName d.package))
  type

def document (t : Table) : Except EmitError Document := do
  let imports ← d.imports t
  return d.documentOf δ imports (← d.typeText δ)

variable {δ d}

theorem documentOf_rows (imports : Imports) (type : TypeText) :
    (d.documentOf δ imports type).rows δ = d.fileRows δ imports (type.rows δ) := by
  by_cases hpkg : d.package = ""
  · simp [documentOf, Document.rows, Document.body, fileRows, fileHead, hpkg]
  · simp [documentOf, Document.rows, Document.body, fileRows, fileHead, hpkg]

theorem appends_interface :
    Appends δ.delimiters (d.writeInterface δ) ((d.interfaceText δ).rows δ) := by
  rw [writeInterface_eq]
  exact (Appends.writeParagraph _).comp ((Appends.writeLines _).writeBlock _)

theorem appends_type {start written : Listing} (hp : start.pending = none)
    (hd : start.delimiters = δ.delimiters) (h : d.writeType δ start = .ok written) :
    ∃ type, d.typeText δ = .ok type ∧
      written = { start with lines := start.lines ++ (type.rows δ).map (Row.line start.depth) } := by
  cases hkind : d.isInterface with
  | true =>
    simp only [writeType, hkind, if_true, pure_eq_ok] at h
    refine ⟨d.interfaceText δ, by simp [typeText, hkind], ?_⟩
    rw [← h]
    exact appends_interface start hp hd
  | false =>
    simp only [writeType, hkind, Bool.false_eq_true, if_false] at h
    obtain ⟨o, ho, hwritten⟩ := appends_class h hp hd
    exact ⟨.classText o, by simp [typeText, hkind, ho, Except.map], hwritten⟩

theorem writeFile_document {imports : Imports} {l : Listing} (h : d.writeFile δ imports = .ok l) :
    ∃ type, d.typeText δ = .ok type ∧ l.Holds ((d.documentOf δ imports type).rows δ) := by
  have htype (start written : Listing) (hp : start.pending = none)
      (hd : start.delimiters = δ.delimiters) (hw : d.writeType δ start = .ok written) :
      ∃ rows, (∃ type, d.typeText δ = .ok type ∧ rows = type.rows δ) ∧
        written = { start with lines := start.lines ++ rows.map (Row.line start.depth) } := by
    obtain ⟨type, hok, hwritten⟩ := appends_type hp hd hw
    exact ⟨_, ⟨type, hok, rfl⟩, hwritten⟩
  obtain ⟨_, ⟨type, hok, rfl⟩, rfl⟩ := writeFile_rows htype h
  refine ⟨type, hok, ?_, rfl, rfl⟩
  rw [documentOf_rows]

theorem document_eq_ok {t : Table} {doc : Document} : d.document δ t = .ok doc ↔
    ∃ imports, d.imports t = .ok imports ∧ ∃ type, d.typeText δ = .ok type ∧ d.documentOf δ imports type = doc := by
  simp only [document, bind_eq_ok, pure_eq_ok]

theorem render_documentOf {t : Table} {l : Listing} (h : d.render δ t = .ok l) :
    ∃ imports type, d.imports t = .ok imports ∧ d.typeText δ = .ok type ∧
      l.Holds ((d.documentOf δ imports type).rows δ) := by
  rw [render, bind_eq_ok] at h
  obtain ⟨imports, himports, hfile⟩ := h
  obtain ⟨type, htype, hl⟩ := writeFile_document hfile
  exact ⟨imports, type, himports, htype, hl⟩

/-- A file that is written has no unfinished line, ends at the outermost level, and its lines are those of the
document: preamble, imports, and in its namespace the interface or the class with its sections. -/
theorem render_holds_document {t : Table} {l : Listing} (h : d.render δ t = .ok l) :
    ∃ doc, d.document δ t = .ok doc ∧ l.Holds (doc.rows δ) := by
  obtain ⟨imports, type, himports, htype, hl⟩ := render_documentOf h
  exact ⟨_, document_eq_ok.2 ⟨imports, himports, type, htype, rfl⟩, hl⟩

def dial : Declaration where
  kind := .classKind none
  package := "ui"
  name := "Dial"
  fields := [{ type := .primitive .int, name := "level" }]
  methods := [{ name := "turn", body := (({} : Listing).writeLine "level++;").nest.write "draw();" }]

def dialRows : List Row := [
  .text 0 "namespace ui", .text 0 "\x7b",
  .text 1 "public class Dial", .text 1 "\x7b",
  .text 2 "public int level;", .empty,
  .text 2 "public virtual void turn()", .text 2 "\x7b", .text 3 "level++;", .text 4 "draw();",
  .text 2 "\x7d", .text 1 "\x7d", .text 0 "\x7d"]

theorem dial_holds_document : ∃ l doc, dial.render .brace {} = .ok l ∧
    dial.document .brace {} = .ok doc ∧ l.Holds (doc.rows .brace) ∧ doc.rows .brace = dialRows := by
  obtain ⟨l, hl⟩ : ∃ l, dial.render .brace {} = .ok l := exists_ok (by decide +kernel)
  obtain ⟨doc, hdoc, hholds⟩ := render_holds_document hl
  have hrows : (dial.document .brace {}).map (Document.rows .brace) = .ok dialRows := by decide +kernel
  rw [hdoc] at hrows
  exact ⟨l, doc, hl, hdoc, hholds, Except.ok.inj hrows⟩

end Declaration

end Stencil
