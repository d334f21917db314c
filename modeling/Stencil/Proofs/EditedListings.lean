import Stencil.Listing.Edit

/-! Listings under change: lines are taken out of a spliced listing and put into it as in the listing that was
spliced, and a run of edits keeps every finished line and every text. -/
namespace Stencil

def Line.deepen (base : Nat) (x : Line) : Line := ⟨base + x.depth, x.text⟩

namespace Listing

theorem endLine_eq (l : Listing) : l.endLine = { l with lines := l.allLines, pending := none } := by
  cases hp : l.pending with
  | none => cases l; simp_all [endLine, allLines]
  | some text => simp [endLine, allLines, hp]

theorem splice_eq (a b : Listing) : a.splice b =
    { a with lines := a.allLines ++ b.allLines.map (Line.deepen a.depth), pending := none } := by
  rw [splice, endLine_eq]
  rfl

section Lines

variable {l : Listing} {before after : List Line} {x : Line}

theorem exists_split {i : Nat} (hi : i < l.size) :
    ∃ before x after, l.lines = before ++ x :: after ∧ before.length = i := by
  have hlt : i < l.lines.length := hi
  refine ⟨l.lines.take i, l.lines[i], l.lines.drop (i + 1), by simp, ?_⟩
  rw [List.length_take]
  omega

theorem removeLine_split (h : l.lines = before ++ x :: after) :
    l.removeLine before.length = (some x, { l with lines := before ++ after }) := by
  simp [removeLine, eraseLine, h, List.eraseIdx_append_of_length_le]

theorem insertLine_split (h : l.lines = before ++ x :: after) (text : String) :
    l.insertLine before.length text = { l with lines := before ++ ⟨x.depth, text⟩ :: x :: after } := by
  have hmin : min before.length l.lines.length = before.length := by
    rw [h, List.length_append]
    omega
  have hput : (before ++ x :: after).insertIdx before.length ⟨x.depth, text⟩ =
      before ++ ⟨x.depth, text⟩ :: x :: after := List.modifyTailIdx_add (List.cons _) 0 before (x :: after)
  simp only [insertLine, hmin]
  simp [h, hput]

theorem lines_splice_split (a : Listing) (h : l.lines = before ++ x :: after) :
    (a.splice l).lines = (a.allLines ++ before.map (Line.deepen a.depth)) ++ x.deepen a.depth ::
      (after ++ (l.pending.map (Line.mk l.depth)).toList).map (Line.deepen a.depth) := by
  simp [splice_eq, allLines, h]

theorem place_in_splice (a : Listing) (before : List Line) :
    a.endLine.size + before.length = (a.allLines ++ before.map (Line.deepen a.depth)).length := by
  simp [endLine_eq, size]

theorem removeLine_splice (a : Listing) (h : l.lines = before ++ x :: after) :
    (a.splice l).removeLine (a.endLine.size + before.length) =
      (some (x.deepen a.depth), a.splice { l with lines := before ++ after }) := by
  rw [place_in_splice, removeLine_split (lines_splice_split a h)]
  simp [splice_eq, allLines]

theorem insertLine_splice (a : Listing) (h : l.lines = before ++ x :: after) (text : String) :
    (a.splice l).insertLine (a.endLine.size + before.length) text =
      a.splice (l.insertLine before.length text) := by
  rw [place_in_splice, insertLine_split (lines_splice_split a h), insertLine_split h]
  simp [splice_eq, allLines, Line.deepen]

theorem removeLine_insertLine {i : Nat} (hi : i ≤ l.size) (text : String) :
    ∃ depth, (l.insertLine i text).removeLine i = (some ⟨depth, text⟩, l) := by
  have hle : i ≤ l.lines.length := hi
  have hmin : min i l.lines.length = i := Nat.min_eq_left hle
  refine ⟨(l.lines[i]? <|> l.lines.getLast?).elim 0 Line.depth, ?_⟩
  simp only [removeLine, eraseLine, insertLine, hmin]
  rw [List.getElem?_insertIdx_self, if_pos hle, List.eraseIdx_insertIdx_self]

end Lines

/-- In front of a line only: at the end of `b`, a line that is put into the splice can take its depth from the
unfinished line of `b` or from the last line of `a`. -/
theorem line_changes_pass_splice (a b l : Listing) (text : String) :
    (∀ i < b.size,
      (∃ x rest, b.removeLine i = (some x, rest) ∧
        (a.splice b).removeLine (a.endLine.size + i) = (some ⟨a.depth + x.depth, x.text⟩, a.splice rest)) ∧
      (a.splice b).insertLine (a.endLine.size + i) text = a.splice (b.insertLine i text)) ∧
    ∀ i ≤ l.size, ∃ depth, (l.insertLine i text).removeLine i = (some ⟨depth, text⟩, l) := by
  constructor
  · intro i hi
    obtain ⟨before, x, after, hb, rfl⟩ := exists_split hi
    exact ⟨⟨x, _, removeLine_split hb, removeLine_splice a hb⟩, insertLine_splice a hb text⟩
  · intro i hi
    exact removeLine_insertLine hi text

def loopHead : Listing := ({} : Listing).editAll [.writeLine "for (;;)", .openBlock, .write "step();"]

def loopBody : Listing :=
  ({} : Listing).editAll [.writeLine "if (done)", .nest, .writeLine "", .writeLine " \t", .unnest, .write "wait();"]

theorem loop_changes_pass_splice :
    2 < loopBody.size ∧ 3 ≤ loopBody.size ∧
    loopBody.removeLine 2 = (some ⟨1, " \t"⟩, loopBody.eraseLine 2) ∧
    (loopHead.splice loopBody).removeLine 5 = (some ⟨2, " \t"⟩, loopHead.splice (loopBody.eraseLine 2)) ∧
    (loopHead.splice loopBody).insertLine 5 "break;" = loopHead.splice (loopBody.insertLine 2 "break;") ∧
    ∃ depth, (loopBody.insertLine 3 "break;").removeLine 3 = (some ⟨depth, "break;"⟩, loopBody) := by
  obtain ⟨hsplice, hback⟩ := line_changes_pass_splice loopHead loopBody loopBody "break;"
  obtain ⟨⟨x, rest, hx, hremoved⟩, hinserted⟩ := hsplice 2 (by decide)
  cases hx
  exact ⟨by decide, by decide, rfl, hremoved, hinserted, hback 3 (by decide)⟩

def content (l : Listing) : String := String.join (l.lines.map Line.text) ++ l.pending.getD ""

def Edit.content (D : Delimiters) : Edit → String
  | .write text | .writeLine text => text
  | .openBlock => D.opening
  | .closeBlock => D.closing
  | .splice other => other.content
  | .endLine | .blankLine | .nest | .unnest => ""

def Edit.levels : Edit → List Int
  | .openBlock | .nest => [1]
  | .closeBlock | .unnest => [-1]
  | .write _ | .writeLine _ | .endLine | .blankLine | .splice _ => []

def depthAfter (levels : List Int) (depth : Nat) : Nat :=
  levels.foldl (fun (d : Nat) (n : Int) => (d + n).toNat) depth

/-- `l'` is `l` with the text behind it and the levels gone through; finished lines stay as they are. -/
structure Continues (l l' : Listing) (text : String) (levels : List Int) : Prop where
  lines : l.lines <+: l'.lines
  content : l'.content = l.content ++ text
  depth : l'.depth = depthAfter levels l.depth
  delimiters : l'.delimiters = l.delimiters

theorem content_eq (l : Listing) : l.content = String.join (l.allLines.map Line.text) := by
  cases hp : l.pending with
  | none => simp [content, allLines, hp]
  | some text => simp [content, allLines, hp]

namespace Continues

variable {l m n : Listing} {s t : String} {u v : List Int}

theorem trans (h : Continues l m s u) (k : Continues m n t v) : Continues l n (s ++ t) (u ++ v) where
  lines := h.lines.trans k.lines
  content := by rw [k.content, h.content, String.append_assoc]
  depth := by rw [k.depth, h.depth, depthAfter, depthAfter, depthAfter, List.foldl_append]
  delimiters := k.delimiters.trans h.delimiters

theorem refl (l : Listing) : Continues l l "" [] where
  lines := List.prefix_rfl
  content := by simp
  depth := rfl
  delimiters := rfl

theorem write (l : Listing) (text : String) : Continues l (l.write text) text [] where
  lines := List.prefix_rfl
  content := by simp [Listing.write, Listing.content, String.append_assoc]
  depth := rfl
  delimiters := rfl

theorem writeLine (l : Listing) (text : String) : Continues l (l.writeLine text) text [] where
  lines := List.prefix_append _ _
  content := by simp [Listing.writeLine, Listing.content, String.append_assoc]
  depth := rfl
  delimiters := rfl

theorem endLine (l : Listing) : Continues l l.endLine "" [] := by
  rw [endLine_eq]
  exact {
    lines := List.prefix_append _ _
    content := by simp [content_eq, allLines]
    depth := rfl
    delimiters := rfl }

theorem append {l : Listing} (hp : l.pending = none) (more : List Line) :
    Continues l { l with lines := l.lines ++ more } (String.join (more.map Line.text)) [] where
  lines := List.prefix_append _ _
  content := by simp [Listing.content, hp]
  depth := rfl
  delimiters := rfl

theorem nest (l : Listing) : Continues l l.nest "" [1] where
  lines := List.prefix_rfl
  content := by simp [Listing.nest, Listing.content]
  depth := rfl
  delimiters := rfl

theorem unnest (l : Listing) : Continues l l.unnest "" [-1] where
  lines := List.prefix_rfl
  content := by simp [Listing.unnest, Listing.content]
  depth := by
    simp only [Listing.unnest, depthAfter, List.foldl_cons, List.foldl_nil]
    omega
  delimiters := rfl

theorem openBlock (l : Listing) : Continues l l.openBlock l.delimiters.opening [1] := by
  simpa [Listing.openBlock] using ((endLine l).trans (writeLine _ l.delimiters.opening)).trans (nest _)

theorem closeBlock (l : Listing) : Continues l l.closeBlock l.delimiters.closing [-1] := by
  simpa [Listing.closeBlock] using ((endLine l).trans (unnest _)).trans (writeLine _ l.delimiters.closing)

theorem blankLine (l : Listing) : Continues l l.blankLine "" [] := by
  have hend : l.endLine.pending = none := by rw [endLine_eq]
  simpa [Listing.blankLine] using (endLine l).trans (append hend [⟨0, ""⟩])

theorem splice (l other : Listing) : Continues l (l.splice other) other.content [] := by
  have hend : l.endLine.pending = none := by rw [endLine_eq]
  let deeper := other.allLines.map (Line.deepen l.endLine.depth)
  have htexts : deeper.map Line.text = other.allLines.map Line.text := by
    simp [deeper, Line.deepen, Function.comp_def]
  have h := (endLine l).trans (append hend deeper)
  rw [htexts, ← content_eq, String.empty_append] at h
  exact h

end Continues

theorem edit_continues (l : Listing) (e : Edit) : Continues l (l.edit e) (e.content l.delimiters) e.levels := by
  cases e with
  | write text => exact .write l text
  | writeLine text => exact .writeLine l text
  | endLine => exact .endLine l
  | blankLine => exact .blankLine l
  | openBlock => exact .openBlock l
  | closeBlock => exact .closeBlock l
  | nest => exact .nest l
  | unnest => exact .unnest l
  | splice other => exact .splice l other

/-- Nothing that is written is lost, doubled or moved. -/
theorem editAll_continues (l : Listing) (edits : List Edit) :
    Continues l (l.editAll edits) (String.join (edits.map (Edit.content l.delimiters)))
      (edits.flatMap Edit.levels) := by
  induction edits generalizing l with
  | nil => exact .refl l
  | cons e edits ih =>
    have hstep := edit_continues l e
    have hrest := ih (l.edit e)
    rw [hstep.delimiters] at hrest
    simpa [editAll] using hstep.trans hrest

end Listing

end Stencil
