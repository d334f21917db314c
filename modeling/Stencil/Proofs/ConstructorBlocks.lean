import Stencil.Emission.Constructor
import Stencil.Proofs.EditedListings
import Mathlib.Data.List.TakeWhile

/-! Blocks of constructors, with each line marked by where it comes from. The rewriting of a body erases and
inserts lines by position; here it is described by the blank lines that a body begins with. -/
namespace Stencil

inductive Statement
  | own (line : Line)
  | initCall (line : Line)
deriving DecidableEq, Repr

namespace Statement

def line : Statement → Line
  | own x => x
  | initCall x => x

def own? : Statement → Option Line
  | own x => some x
  | initCall _ => none

def isCall : Statement → Bool
  | own _ => false
  | initCall _ => true

@[simp] theorem line_own (x : Line) : (own x).line = x := rfl

@[simp] theorem line_initCall (x : Line) : (initCall x).line = x := rfl

@[simp] theorem line_comp_own : line ∘ own = id := rfl

@[simp] theorem own?_own (x : Line) : (own x).own? = some x := rfl

@[simp] theorem own?_initCall (x : Line) : (initCall x).own? = none := rfl

@[simp] theorem own?_comp_own : own? ∘ own = some := rfl

@[simp] theorem isCall_own (x : Line) : (own x).isCall = false := rfl

@[simp] theorem isCall_initCall (x : Line) : (initCall x).isCall = true := rfl

end Statement

/-- Behind blank lines of the body, a block begins with the call; every other line is the body's own. -/
def CallLeads (call : String) (block : List Statement) : Prop :=
  ∃ (blanks : List Line) (depth : Nat) (rest : List Line),
    block = blanks.map .own ++ .initCall ⟨depth, call⟩ :: rest.map .own ∧ ∀ x ∈ blanks, x.isBlank = true

/-- What remains of a body when the delegation that it begins with, if any, has been taken out. -/
inductive MovesDelegation (body : Listing) : Option Delegation → List Line → Prop
  | kept (h : ∀ x, body.lines.find? (!·.isBlank) = some x →
      Delegation.parse (Text.trim x.text.toList) = .ok none) : MovesDelegation body none body.allLines
  | moved {blanks rest : List Line} {x : Line} {g : Delegation} (hlines : body.lines = blanks ++ x :: rest)
      (hblank : ∀ y ∈ blanks, y.isBlank = true) (hx : x.isBlank = false)
      (hg : Delegation.parse (Text.trim x.text.toList) = .ok (some g)) :
      MovesDelegation body (some g) (blanks ++ rest ++ (body.pending.map (Line.mk body.depth)).toList)

namespace ConstructorBody

def takeDelegation (declaration : String) (lines : List Line) :
    Except EmitError (Option Delegation × List Line) :=
  match lines.dropWhile Line.isBlank with
  | [] => .ok (none, lines)
  | x :: rest =>
    match Delegation.parse (Text.trim x.text.toList) with
    | .ok none => .ok (none, lines)
    | .ok (some g) => .ok (some g, lines.takeWhile Line.isBlank ++ rest)
    | .error () => .error (.unknownDelegation declaration (.ofList (Text.trim x.text.toList)))

def placeCall (call : String) (lines : List Line) : List Statement :=
  match lines.dropWhile Line.isBlank with
  | [] => .initCall ⟨lines.head?.elim 0 Line.depth, call⟩ :: lines.map .own
  | x :: rest =>
    (lines.takeWhile Line.isBlank).map .own ++ .initCall ⟨x.depth, call⟩ :: (x :: rest).map .own

theorem lines_cases (lines : List Line) :
    (∀ x ∈ lines, x.isBlank = true) ∨
    ∃ blanks x rest, lines = blanks ++ x :: rest ∧ (∀ y ∈ blanks, y.isBlank = true) ∧ x.isBlank = false := by
  induction lines with
  | nil => exact .inl (by simp)
  | cons y lines ih =>
    cases hy : y.isBlank with
    | false => exact .inr ⟨[], y, lines, rfl, by simp, hy⟩
    | true =>
      obtain hall | ⟨blanks, x, rest, rfl, hb, hx⟩ := ih
      · exact .inl (by simpa [hy] using hall)
      · exact .inr ⟨y :: blanks, x, rest, rfl, by simpa [hy] using hb, hx⟩

section FirstStatement

variable {lines blanks rest : List Line} {x : Line}

theorem dropWhile_of_blank (h : ∀ x ∈ lines, x.isBlank = true) :
    lines.dropWhile Line.isBlank = [] := by
  simpa [List.dropWhile_eq_nil_iff] using h

theorem dropWhile_of_statement (hl : lines = blanks ++ x :: rest) (hb : ∀ y ∈ blanks, y.isBlank = true)
    (hx : x.isBlank = false) : lines.dropWhile Line.isBlank = x :: rest := by
  rw [hl, List.dropWhile_append_of_pos hb, List.dropWhile_cons_of_neg (by simp [hx])]

theorem takeWhile_of_statement (hl : lines = blanks ++ x :: rest) (hb : ∀ y ∈ blanks, y.isBlank = true)
    (hx : x.isBlank = false) : lines.takeWhile Line.isBlank = blanks := by
  rw [hl, List.takeWhile_append_of_pos hb, List.takeWhile_cons_of_neg (by simp [hx]), List.append_nil]

theorem firstStatement?_of_blank {body : Listing} (h : ∀ x ∈ body.lines, x.isBlank = true) :
    body.firstStatement? = none := by
  simpa [Listing.firstStatement?, List.findIdx?_eq_none_iff] using h

theorem firstStatement?_of_statement {body : Listing} (hl : body.lines = blanks ++ x :: rest)
    (hb : ∀ y ∈ blanks, y.isBlank = true) (hx : x.isBlank = false) :
    body.firstStatement? = some blanks.length := by
  have hn : blanks.findIdx? (!·.isBlank) = none := by simpa [List.findIdx?_eq_none_iff] using hb
  simp [Listing.firstStatement?, hl, List.findIdx?_append, hn, List.findIdx?_cons, hx]

theorem find?_of_statement (hl : lines = blanks ++ x :: rest) (hb : ∀ y ∈ blanks, y.isBlank = true)
    (hx : x.isBlank = false) : lines.find? (!·.isBlank) = some x := by
  have hn : blanks.find? (!·.isBlank) = none := by simpa [List.find?_eq_none] using hb
  simp [hl, List.find?_append, hn, hx]

end FirstStatement

/-- Inserting by position puts the call where `placeCall` has it. -/
theorem withInitializer_eq (δ : Dialect) (body : Listing) :
    withInitializer δ body = { body with
      lines := (placeCall (Dialect.callStatement δ.initializerMethod) body.lines).map Statement.line } := by
  obtain hall | ⟨blanks, x, rest, hl, hb, hx⟩ := lines_cases body.lines
  · have hd := dropWhile_of_blank hall
    simp only [withInitializer, firstStatement?_of_blank hall, placeCall, hd, Listing.insertLine]
    cases hl : body.lines with
    | nil => simp
    | cons y ys => simp
  · have hd := dropWhile_of_statement hl hb hx
    have ht := takeWhile_of_statement hl hb hx
    simp only [withInitializer, firstStatement?_of_statement hl hb hx, placeCall, hd, ht, Option.getD_some,
      Listing.insertLine_split hl]
    simp

theorem delegation?_eq (declaration : String) (body : Listing) :
    (delegation? declaration body).map (fun found => (found.map Prod.snd, match found with
      | some (i, _) => (body.eraseLine i).lines
      | none => body.lines)) = takeDelegation declaration body.lines := by
  obtain hall | ⟨blanks, x, rest, hl, hb, hx⟩ := lines_cases body.lines
  · have hd := dropWhile_of_blank hall
    simp [delegation?, firstStatement?_of_blank hall, takeDelegation, hd, Except.map]
  · have hd := dropWhile_of_statement hl hb hx
    have ht := takeWhile_of_statement hl hb hx
    have hget : (body.lines[blanks.length]?.map Line.text).getD "" = x.text := by simp [hl]
    simp only [delegation?, firstStatement?_of_statement hl hb hx, takeDelegation, hd, ht, hget]
    cases hp : Delegation.parse (Text.trim x.text.toList) with
    | error u => simp [Except.map]
    | ok found =>
      cases found with
      | none => simp [Except.map]
      | some g => simp [Except.map, Listing.eraseLine, hl, List.eraseIdx_append_of_length_le]

def markedLines (δ : Dialect) (initFields : Bool) (lines : List Line) : List Statement :=
  if initFields then placeCall (Dialect.callStatement δ.initializerMethod) lines else lines.map .own

theorem ofListing_eq (δ : Dialect) (declaration : String) (body : Listing) (initFields : Bool) :
    ofListing δ declaration body initFields =
      (takeDelegation declaration body.lines).map fun (g, lines) => {
        clause := g.map fun g => Dialect.delegationClause (g.call δ)
        body := { body with lines := (markedLines δ initFields lines).map Statement.line } } := by
  rw [← delegation?_eq]
  cases hd : delegation? declaration body with
  | error e => simp [ofListing, hd, Except.map, bind, Except.bind]
  | ok found =>
    cases found with
    | none =>
      cases initFields <;>
        simp [ofListing, hd, Except.map, bind, Except.bind, pure, Except.pure, markedLines,
          withInitializer_eq]
    | some p =>
      cases initFields <;>
        simp [ofListing, hd, Except.map, bind, Except.bind, pure, Except.pure, markedLines,
          withInitializer_eq, Listing.eraseLine]

theorem takeDelegation_moves {declaration : String} {body : Listing} {g : Option Delegation}
    {rest : List Line} (h : takeDelegation declaration body.lines = .ok (g, rest)) :
    MovesDelegation body g (rest ++ (body.pending.map (Line.mk body.depth)).toList) := by
  obtain hall | ⟨blanks, x, tail, hl, hb, hx⟩ := lines_cases body.lines
  · have hd := dropWhile_of_blank hall
    simp only [takeDelegation, hd, Except.ok.injEq, Prod.mk.injEq] at h
    obtain ⟨rfl, rfl⟩ := h
    refine .kept fun x hx => ?_
    have hblank := hall x (List.mem_of_find?_eq_some hx)
    have hfound := List.find?_some hx
    simp [hblank] at hfound
  · have hd := dropWhile_of_statement hl hb hx
    have ht := takeWhile_of_statement hl hb hx
    simp only [takeDelegation, hd, ht] at h
    cases hp : Delegation.parse (Text.trim x.text.toList) with
    | error u => simp [hp] at h
    | ok found =>
      cases found with
      | none =>
        simp only [hp, Except.ok.injEq, Prod.mk.injEq] at h
        obtain ⟨rfl, rfl⟩ := h
        refine .kept fun y hy => ?_
        rw [find?_of_statement hl hb hx, Option.some.injEq] at hy
        rwa [← hy]
      | some found =>
        simp only [hp, Except.ok.injEq, Prod.mk.injEq] at h
        obtain ⟨rfl, rfl⟩ := h
        exact .moved hl hb hx hp

theorem placeCall_leads (call : String) (lines : List Line) : CallLeads call (placeCall call lines) := by
  obtain hall | ⟨blanks, x, rest, rfl, hb, hx⟩ := lines_cases lines
  · refine ⟨[], lines.head?.elim 0 Line.depth, lines, ?_, by simp⟩
    simp [placeCall, dropWhile_of_blank hall]
  · refine ⟨blanks, x.depth, x :: rest, ?_, hb⟩
    simp [placeCall, dropWhile_of_statement rfl hb hx, takeWhile_of_statement rfl hb hx]

theorem placeCall_own (call : String) (lines : List Line) :
    (placeCall call lines).filterMap Statement.own? = lines := by
  obtain hall | ⟨blanks, x, rest, rfl, hb, hx⟩ := lines_cases lines
  · simp [placeCall, dropWhile_of_blank hall, List.filterMap_cons]
  · simp [placeCall, dropWhile_of_statement rfl hb hx, takeWhile_of_statement rfl hb hx, List.filterMap_cons]

theorem markedLines_own (δ : Dialect) (initFields : Bool) (lines : List Line) :
    (markedLines δ initFields lines).filterMap Statement.own? = lines := by
  cases initFields with
  | false => simp [markedLines]
  | true => simp [markedLines, placeCall_own]

end ConstructorBody

end Stencil
