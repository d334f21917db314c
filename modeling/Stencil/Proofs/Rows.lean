import Stencil.Emission.SourceText
import Stencil.Proofs.TextPieces
import Mathlib.Data.List.Forall2

/-! Rows: what a writer appends to a listing, whatever depth it is called at. A writer is described by its
rows alone; pending text, depth and delimiters of the listing come back as they were. -/
namespace Stencil

/-- A line whose depth counts from where the text is put, or an empty line, which is never indented. -/
inductive Row
  | text (depth : Nat) (text : String)
  | empty
deriving DecidableEq, Repr

namespace Row

def line (base : Nat) : Row → Line
  | text depth s => ⟨base + depth, s⟩
  | empty => ⟨0, ""⟩

def nest : Row → Row
  | text depth s => text (depth + 1) s
  | empty => empty

def ofLine (x : Line) : Row := text x.depth x.text

def paragraph (texts : List String) : List Row :=
  if texts.isEmpty then [] else texts.map (text 0) ++ [empty]

def block (delimiters : Delimiters) (header : String) (rows : List Row) : List Row :=
  text 0 header :: text 0 delimiters.opening :: rows.map nest ++ [text 0 delimiters.closing]

def separated (sections : List (List Row)) : List Row := [empty].intercalate sections

@[simp] theorem line_text (base depth : Nat) (s : String) : (text depth s).line base = ⟨base + depth, s⟩ := rfl

@[simp] theorem line_empty (base : Nat) : empty.line base = ⟨0, ""⟩ := rfl

@[simp] theorem line_nest (base : Nat) (r : Row) : r.nest.line base = r.line (base + 1) := by
  cases r with
  | text depth s => simp only [nest, line_text, Nat.add_assoc, Nat.add_comm 1]
  | empty => rfl

theorem separated_cons (rows : List Row) (sections : List (List Row)) :
    separated (rows :: sections) = rows ++ sections.flatMap (empty :: ·) :=
  Text.intercalate_cons_eq [empty] rows sections

end Row

/-- The writer appends the rows at the depth at which it finds the listing, and changes nothing else. -/
def Appends (D : Delimiters) (write : Listing → Listing) (rows : List Row) : Prop :=
  ∀ l : Listing, l.pending = none → l.delimiters = D →
    write l = { l with lines := l.lines ++ rows.map (Row.line l.depth) }

namespace Appends

variable {D : Delimiters}

theorem comp {f g : Listing → Listing} {rows more : List Row}
    (hf : Appends D f rows) (hg : Appends D g more) : Appends D (fun l => g (f l)) (rows ++ more) := by
  intro l hp hd
  have hfl := hf l hp hd
  have hgl := hg { l with lines := l.lines ++ rows.map (Row.line l.depth) } hp hd
  simp only [hfl, hgl, List.map_append, List.append_assoc]

theorem rows (rows : List Row) :
    Appends D (fun l => { l with lines := l.lines ++ rows.map (Row.line l.depth) }) rows :=
  fun _ _ _ => rfl

theorem skip : Appends D id [] := by
  intro l _ _
  simp

theorem writeLine (s : String) : Appends D (·.writeLine s) [.text 0 s] := by
  intro l hp _
  simp [Listing.writeLine, hp]

theorem blankLine : Appends D Listing.blankLine [.empty] := by
  intro l hp _
  simp [Listing.blankLine, Listing.endLine, hp]

theorem splice (other : Listing) : Appends D (·.splice other) (other.allLines.map Row.ofLine) := by
  intro l hp _
  simp [Listing.splice, Listing.endLine, hp, Row.ofLine, Function.comp_def]

theorem writeLines (texts : List String) : Appends D (·.writeLines texts) (texts.map (.text 0)) := by
  induction texts with
  | nil => exact skip
  | cons s texts ih => exact (writeLine s).comp ih

theorem writeParagraph (texts : List String) :
    Appends D (·.writeParagraph texts) (Row.paragraph texts) := by
  cases texts with
  | nil => exact skip
  | cons s texts => exact (writeLines (s :: texts)).comp blankLine

theorem writeBlock {f : Listing → Listing} {rows : List Row} (header : String) (hf : Appends D f rows) :
    Appends D (·.writeBlock header f) (Row.block D header rows) := by
  intro l hp hd
  let opened : Listing :=
    { l with lines := l.lines ++ [⟨l.depth, header⟩, ⟨l.depth, D.opening⟩], depth := l.depth + 1 }
  have ho : (l.writeLine header).openBlock = opened := by
    simp [opened, Listing.openBlock, Listing.writeLine, Listing.endLine, Listing.nest, hp, hd]
  have hb := hf opened hp hd
  simp only [Listing.writeBlock, Listing.block, ho, hb]
  simp [opened, Listing.closeBlock, Listing.endLine, Listing.unnest, Listing.writeLine, hp, hd, Row.block,
    Function.comp_def]

theorem writeSectionsAfter {writers : List (Listing → Listing)} {sections : List (List Row)}
    (h : List.Forall₂ (Appends D) writers sections) :
    Appends D (fun l => (writers.foldl (fun (l, started) write =>
      (write (if started then l.blankLine else l), true)) (l, true)).1) (sections.flatMap (.empty :: ·)) := by
  induction h with
  | nil => exact skip
  | cons hw _ ih => exact (blankLine.comp hw).comp ih

theorem writeSections {writers : List (Listing → Listing)} {sections : List (List Row)}
    (h : List.Forall₂ (Appends D) writers sections) :
    Appends D (·.writeSections writers) (Row.separated sections) := by
  cases h with
  | nil => exact skip
  | cons hw ht =>
    rw [Row.separated_cons]
    exact hw.comp (writeSectionsAfter ht)

end Appends

end Stencil
