import Stencil.Proofs.EditedListings

/-! Listings as text: what a splice prints, and what is printed when a listing was kept as plain texts. -/
namespace Stencil

namespace Text

def indentRow (margin row : List Char) : List Char := if row = [] then [] else margin ++ row

def indented (margin text : String) : String :=
  .ofList (['\n'].intercalate ((text.toList.splitOn '\n').map (indentRow margin.toList)))

def ended (rows : List (List Char)) : List Char := rows.flatMap (· ++ ['\n'])

@[simp] theorem indentRow_nil (margin : List Char) : indentRow margin [] = [] := rfl

@[simp] theorem nil_indentRow (row : List Char) : indentRow [] row = row := by
  cases row with
  | nil => rfl
  | cons c row => simp [indentRow]

theorem not_mem_indentRow {c : Char} {margin row : List Char} (hmargin : c ∉ margin) (hrow : c ∉ row) :
    c ∉ indentRow margin row := by
  cases row with
  | nil => simp
  | cons d row => simpa [indentRow, hmargin] using hrow

theorem indentRow_append (outer inner row : List Char) :
    indentRow (outer ++ inner) row = indentRow outer (indentRow inner row) := by
  cases row with
  | nil => simp
  | cons c row => simp [indentRow]

@[simp] theorem ended_cons (row : List Char) (rows : List (List Char)) :
    ended (row :: rows) = row ++ '\n' :: ended rows := by
  simp [ended]

theorem ended_eq_intercalate (rows : List (List Char)) : ended rows = ['\n'].intercalate (rows ++ [[]]) := by
  induction rows with
  | nil => simp [ended]
  | cons row rows ih =>
    rw [List.cons_append, List.intercalate_cons_of_ne_nil (by simp), ← ih]
    simp

theorem indented_ended (margin : String) {rows : List (List Char)} (h : ∀ row ∈ rows, '\n' ∉ row) :
    indented margin (.ofList (ended rows)) = .ofList (ended (rows.map (indentRow margin.toList))) := by
  have hsplit : (ended rows).splitOn '\n' = rows ++ [[]] := by
    rw [ended_eq_intercalate]
    refine List.splitOn_intercalate '\n' (fun row hrow => ?_) (by simp)
    rw [List.mem_append, List.mem_singleton] at hrow
    cases hrow with
    | inl hrow => exact h row hrow
    | inr hrow => simp [hrow]
  rw [indented, String.toList_ofList, hsplit, List.map_append, List.map_singleton, indentRow_nil,
    ← ended_eq_intercalate]

end Text

namespace Indent

theorem margin_add (indent : Indent) (m n : Nat) : indent.margin (m + n) = indent.margin m ++ indent.margin n := by
  rw [margin, margin, margin, ← String.join_append, List.replicate_append_replicate]

theorem newline_not_mem_text (indent : Indent) : '\n' ∉ indent.text.toList := by
  unfold text
  split <;> decide

theorem newline_not_mem_margin (indent : Indent) (n : Nat) : '\n' ∉ (indent.margin n).toList := by
  induction n with
  | zero => simp [margin]
  | succ n ih =>
    have hone : indent.margin 1 = indent.text := by simp [margin]
    rw [margin_add, hone, String.toList_append, List.mem_append]
    exact fun h => h.elim ih indent.newline_not_mem_text

end Indent

namespace Line

def row (indent : Indent) (x : Line) : List Char := Text.indentRow (indent.margin x.depth).toList x.text.toList

theorem toList_render (indent : Indent) (x : Line) : (x.render indent).toList = x.row indent ++ ['\n'] := by
  by_cases h : x.text = ""
  · simp [render, row, h]
  · simp [render, row, Text.indentRow, h]

theorem row_deepen (indent : Indent) (base : Nat) (x : Line) :
    (x.deepen base).row indent = Text.indentRow (indent.margin base).toList (x.row indent) := by
  rw [row, row, deepen, Indent.margin_add, String.toList_append, Text.indentRow_append]

theorem newline_not_mem_row {x : Line} (h : '\n' ∉ x.text.toList) (indent : Indent) : '\n' ∉ x.row indent :=
  Text.not_mem_indentRow (indent.newline_not_mem_margin x.depth) h

def tabbed (x : Line) : List Char := .replicate x.depth '\t' ++ x.text.toList

theorem tabbed_eq_row {x : Line} (h : x.text = "" → x.depth = 0) : x.tabbed = x.row .tab := by
  have hmargin : (Indent.tab.margin x.depth).toList = .replicate x.depth '\t' := by
    simp [Indent.margin, Indent.text, List.flatMap_replicate]
  by_cases hx : x.text = ""
  · simp [tabbed, row, hx, h hx]
  · simp [tabbed, row, Text.indentRow, hx, hmargin]

end Line

namespace Listing

theorem render_finished {l : Listing} (hp : l.pending = none) (indent : Indent) :
    l.render indent = .ofList (Text.ended (l.lines.map (Line.row indent))) := by
  rw [← String.toList_inj, render, hp]
  simp [Text.ended, List.flatMap_map, Line.toList_render]

theorem render_endLine (l : Listing) (indent : Indent) :
    l.endLine.render indent = .ofList (Text.ended (l.allLines.map (Line.row indent))) := by
  rw [endLine_eq, render_finished rfl]

theorem render_splice (a b : Listing) (indent : Indent) :
    (a.splice b).render indent = a.endLine.render indent ++
      .ofList (Text.ended ((b.allLines.map (Line.row indent)).map (Text.indentRow (indent.margin a.depth).toList))) := by
  rw [splice_eq, render_finished rfl, render_endLine, ← String.toList_inj]
  simp [Text.ended, Line.row_deepen, List.flatMap_map]

/-- A line end inside a text of `b` would begin a row that a splice does not indent. -/
theorem splice_prints_indented (a b : Listing) (indent : Indent)
    (hlines : ∀ x ∈ b.lines, '\n' ∉ x.text.toList) (hpending : ∀ text ∈ b.pending, '\n' ∉ text.toList) :
    (a.splice b).render indent = a.endLine.render indent ++
      Text.indented (indent.margin a.depth) (b.endLine.render indent) := by
  have hrows : ∀ row ∈ b.allLines.map (Line.row indent), '\n' ∉ row := by
    intro row hrow
    obtain ⟨x, hx, rfl⟩ := List.mem_map.1 hrow
    apply Line.newline_not_mem_row
    rw [allLines, List.mem_append, Option.mem_toList, Option.map_eq_some_iff] at hx
    obtain hx | ⟨text, htext, rfl⟩ := hx
    · exact hlines x hx
    · exact hpending text htext
  rw [render_splice, b.render_endLine, Text.indented_ended _ hrows]

theorem loop_prints_indented :
    (∀ x ∈ loopBody.lines, '\n' ∉ x.text.toList) ∧ (∀ text ∈ loopBody.pending, '\n' ∉ text.toList) ∧
    loopBody.endLine.render .compact = "if (done)\n\n   \t\nwait();\n" ∧
    Text.indented "  " "if (done)\n\n   \t\nwait();\n" = "  if (done)\n\n     \t\n  wait();\n" ∧
    (loopHead.splice loopBody).render .compact =
      loopHead.endLine.render .compact ++ Text.indented "  " (loopBody.endLine.render .compact) := by
  have hlines : ∀ x ∈ loopBody.lines, '\n' ∉ x.text.toList := by decide
  have hpending : ∀ text ∈ loopBody.pending, '\n' ∉ text.toList := by decide
  exact ⟨hlines, hpending, by decide +kernel, by decide +kernel,
    splice_prints_indented loopHead loopBody .compact hlines hpending⟩

theorem toTexts_ofTexts (texts : List String) : (ofTexts texts).toTexts = texts := by
  simp [toTexts, ofTexts, Function.comp_def]

theorem render_ofTexts (texts : List String) (indent : Indent) :
    (ofTexts texts).render indent = .ofList (Text.ended (texts.map String.toList)) := by
  have hrow (text : String) : Line.row indent ⟨0, text⟩ = text.toList := by simp [Line.row, Indent.margin]
  rw [render_finished rfl]
  simp [ofTexts, hrow, Function.comp_def]

theorem toTexts_finished {l : Listing} (hp : l.pending = none) :
    l.toTexts.map String.toList = l.lines.map Line.tabbed := by
  simp [toTexts, hp, Line.tabbed, Function.comp_def]

theorem ended_tabbed_iff (lines : List Line) :
    Text.ended (lines.map Line.tabbed) = Text.ended (lines.map (Line.row .tab)) ↔
      ∀ x ∈ lines, x.text = "" → x.depth = 0 := by
  induction lines with
  | nil => simp
  | cons x lines ih =>
    rw [List.map_cons, List.map_cons, Text.ended_cons, Text.ended_cons, List.forall_mem_cons]
    by_cases hx : x.text = "" → x.depth = 0
    · rw [Line.tabbed_eq_row hx, List.append_cancel_left_eq, List.cons.injEq, ih]
      exact ⟨fun h => ⟨hx, h.2⟩, fun h => ⟨rfl, h.2⟩⟩
    · -- a nested empty line begins with a tab in one text and is a bare line end in the other
      obtain ⟨htext, hdepth⟩ := Classical.not_imp.1 hx
      obtain ⟨n, hn⟩ := Nat.exists_eq_succ_of_ne_zero hdepth
      simp [Line.tabbed, Line.row, htext, hn, List.replicate_succ]

/-- Texts keep the depth of an empty line, which printing leaves out. -/
theorem reread_prints_same_iff (l : Listing) (hp : l.pending = none) :
    ((ofTexts l.toTexts).render .tab = l.render .tab ↔ ∀ x ∈ l.lines, x.text = "" → x.depth = 0) ∧
    (ofTexts l.toTexts).toTexts = l.toTexts ∧ ofTexts (ofTexts l.toTexts).toTexts = ofTexts l.toTexts := by
  refine ⟨?_, toTexts_ofTexts _, by rw [toTexts_ofTexts]⟩
  rw [render_ofTexts, render_finished hp, toTexts_finished hp, String.ofList_inj]
  exact ended_tabbed_iff l.lines

def stepped : Listing :=
  ({} : Listing).editAll [.writeLine "a", .nest, .writeLine "\tb", .blankLine, .nest, .writeLine "  ", .writeLine "c"]

theorem stepped_prints_same :
    stepped.pending = none ∧ (∀ x ∈ stepped.lines, x.text = "" → x.depth = 0) ∧
    stepped.toTexts = ["a", "\t\tb", "", "\t\t  ", "\t\tc"] ∧
    (ofTexts stepped.toTexts).render .tab = stepped.render .tab ∧
    ofTexts (ofTexts stepped.toTexts).toTexts = ofTexts stepped.toTexts := by
  have hempty : ∀ x ∈ stepped.lines, x.text = "" → x.depth = 0 := by decide
  obtain ⟨hiff, -, hagain⟩ := reread_prints_same_iff stepped rfl
  exact ⟨rfl, hempty, by decide +kernel, hiff.2 hempty, hagain⟩

def nestedEmpty : Listing := ({} : Listing).editAll [.nest, .writeLine ""]

theorem nestedEmpty_prints_otherwise :
    nestedEmpty.pending = none ∧ nestedEmpty.render .tab = "\n" ∧
    (ofTexts nestedEmpty.toTexts).render .tab = "\t\n" ∧
    (ofTexts nestedEmpty.toTexts).render .tab ≠ nestedEmpty.render .tab := by
  decide +kernel

end Listing

end Stencil
