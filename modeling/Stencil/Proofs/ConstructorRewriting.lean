import Stencil.Dialect.Brace
import Stencil.Proofs.EmissionFaults

/-! The rewriting of a constructor's body as a whole: when it is refused, what the clause says, and which lines
remain. -/
namespace Stencil

namespace Delegation

def keyword (δ : Dialect) : Delegation → String
  | sameClass _ => δ.selfCall
  | base _ => δ.baseCall

/-- What a clause takes over of the arguments: all but the blanks at the end, then the semicolons there, then the
blanks there. -/
def KeepsArgs (args kept : List Char) : Prop :=
  ∃ s t, Text.StripsTail Text.isBlank args s ∧ Text.StripsTail (· = ';') s t ∧ Text.StripsTail Text.isBlank t kept

theorem keepsArgs_trimArgs (args : List Char) : KeepsArgs args (trimArgs args) :=
  ⟨_, _, Text.stripsTail_dropTail _ _, Text.stripsTail_dropTail _ _, Text.stripsTail_dropTail _ _⟩

theorem call_eq (δ : Dialect) (g : Delegation) : g.call δ = g.keyword δ ++ .ofList (trimArgs g.args) := by
  cases g <;> rfl

end Delegation

namespace ConstructorBody

/-- The clause of a body and the lines that remain: a marked call on the first line with visible text becomes the
clause, and without one all lines remain. -/
inductive MovesCall (δ : Dialect) (lines : List Line) : Option String → List Line → Prop
  | kept (h : ∀ x g, lines.find? (!·.isBlank) = some x → ¬Delegation.WrittenOn (Text.trim x.text.toList) g) :
      MovesCall δ lines none lines
  | moved {blanks rest : List Line} {x : Line} {g : Delegation} {args : List Char}
      (hlines : lines = blanks ++ x :: rest) (hblank : ∀ y ∈ blanks, y.isBlank = true) (hx : x.isBlank = false)
      (hg : g.WrittenOn (Text.trim x.text.toList)) (hargs : Delegation.KeepsArgs g.args args) :
      MovesCall δ lines (some (Dialect.delegationClause (g.keyword δ ++ .ofList args))) (blanks ++ rest)

def AddsLine (text : String) (lines lines' : List Line) : Prop :=
  ∃ before depth after, lines = before ++ after ∧ lines' = before ++ ⟨depth, text⟩ :: after

variable {δ : Dialect} {declaration : String} {lines rest : List Line}

theorem takeDelegation_movesCall {g : Option Delegation} (h : takeDelegation declaration lines = .ok (g, rest)) :
    MovesCall δ lines (g.map fun g => Dialect.delegationClause (g.call δ)) rest := by
  have hmoves : MovesDelegation { lines } g (rest ++ []) := takeDelegation_moves h
  rw [List.append_nil] at hmoves
  cases hmoves with
  | kept hnone =>
    simp only [Listing.allLines, Option.map_none, Option.toList_none, List.append_nil]
    refine .kept fun x g hx hg => ?_
    have hok := hnone x hx
    rw [Delegation.parse_eq_ok_some_iff.2 hg] at hok
    cases hok
  | moved hlines hblank hx hg =>
    simp only [Option.map_some, Option.map_none, Option.toList_none, List.append_nil, Delegation.call_eq]
    exact .moved hlines hblank hx (Delegation.parse_eq_ok_some_iff.1 hg) (Delegation.keepsArgs_trimArgs _)

theorem placeCall_addsLine (call : String) (lines : List Line) :
    AddsLine call lines ((placeCall call lines).map Statement.line) := by
  obtain ⟨blanks, depth, after, hblock, -⟩ := placeCall_leads call lines
  have hown := placeCall_own call lines
  rw [hblock] at hown
  refine ⟨blanks, depth, after, ?_, ?_⟩
  · simpa [List.filterMap_cons] using hown.symm
  · simp [hblock]

theorem ofListing_eq_error_iff {body : Listing} {initFields : Bool} {e : EmitError} :
    ofListing δ declaration body initFields = .error e ↔
      ∃ x, body.lines.find? (!·.isBlank) = some x ∧ Delegation.UnknownMarker (Text.trim x.text.toList) ∧
        .unknownDelegation declaration (.ofList (Text.trim x.text.toList)) = e := by
  rw [← Declaration.errorOf?_takeDelegation_eq_some_iff, ← errorOf?_eq_some, ofListing_eq, errorOf?_map]

/-- A body is refused exactly if the first line with visible text is a call with an unknown marker. Otherwise that
line becomes the clause if it is a call with a known marker, and every other line stays as it is, with the call of the
initializer method among them exactly if it is asked for. -/
theorem ofListing_moves_and_adds (δ : Dialect) (declaration : String) (body : Listing) (initFields : Bool) :
    (∀ e, ofListing δ declaration body initFields = .error e ↔
      ∃ x, body.lines.find? (!·.isBlank) = some x ∧ Delegation.UnknownMarker (Text.trim x.text.toList) ∧
        .unknownDelegation declaration (.ofList (Text.trim x.text.toList)) = e) ∧
    ∀ c, ofListing δ declaration body initFields = .ok c →
      c.body = { body with lines := c.body.lines } ∧
      ∃ rest, MovesCall δ body.lines c.clause rest ∧
        (initFields = true → AddsLine (Dialect.callStatement δ.initializerMethod) rest c.body.lines) ∧
        (initFields = false → c.body.lines = rest) := by
  refine ⟨fun e => ofListing_eq_error_iff, fun c h => ?_⟩
  rw [ofListing_eq, map_eq_ok] at h
  obtain ⟨⟨g, rest⟩, hrest, rfl⟩ := h
  refine ⟨rfl, rest, takeDelegation_movesCall hrest, ?_, ?_⟩
  · rintro rfl
    exact placeCall_addsLine _ rest
  · rintro rfl
    simp [markedLines]

def pairBody : Listing := .ofTexts ["", "  super-call (name);; ", "ready = true;"]

theorem pairBody_moves_and_adds : ∃ c, ofListing .brace "a.Pair" pairBody true = .ok c ∧
    c.clause = some " : base(name)" ∧
    c.body.lines = [⟨0, ""⟩, ⟨0, "__internalInitializeFields();"⟩, ⟨0, "ready = true;"⟩] ∧
    ∃ rest, MovesCall .brace pairBody.lines c.clause rest ∧
      AddsLine "__internalInitializeFields();" rest c.body.lines := by
  let c : ConstructorBody := ⟨some " : base(name)", .ofTexts ["", "__internalInitializeFields();", "ready = true;"]⟩
  have hc : ofListing .brace "a.Pair" pairBody true = .ok c := by decide +kernel
  obtain ⟨-, rest, hmoves, hadds, -⟩ := (ofListing_moves_and_adds .brace "a.Pair" pairBody true).2 c hc
  exact ⟨c, hc, rfl, rfl, rest, hmoves, hadds rfl⟩

end ConstructorBody

end Stencil
