import Stencil.Proofs.DeferredInitializers
import Stencil.Proofs.TextPieces

/-! Literals in initializers. The search for constructions reads a text from the left and leaves its literals out;
the test for a literal looks at the first and the last character of a text. Main statement: the two agree except on
texts that go on behind a first literal and end with its quote, and so the policies are ordered by how much they
defer except where such a text constructs something. -/
namespace Stencil

namespace Initializer

/-- The inside of a literal: pairs of a backslash and any character, and characters other than the backslash and
the quote. -/
inductive Content (quote : Char) : List Char → Prop
  | nil : Content quote []
  | escaped {e : Char} {cs : List Char} (h : Content quote cs) : Content quote ('\\' :: e :: cs)
  | plain {c : Char} {cs : List Char} (hc : c ≠ '\\') (hq : c ≠ quote) (h : Content quote cs) :
      Content quote (c :: cs)

/-- The inside of a literal that is not closed. A backslash at its end has no character to take with it. -/
def Unclosed (quote : Char) (s : List Char) : Prop :=
  ∃ content, Content quote content ∧ (s = content ∨ s = content ++ ['\\'])

/-- Blanks aside, the text begins with a whole literal, goes on behind it, and ends with the quote of that
literal. -/
def Compound (expr : String) : Prop :=
  ∃ quote content rest, isQuote quote = true ∧ Content quote content ∧
    Text.trim expr.toList = quote :: (content ++ quote :: rest) ∧ rest.getLast? = some quote

def Inert (c : Char) : Prop := isQuote c = false ∧ c ≠ 'w'

instance : DecidablePred Inert := fun _ => inferInstanceAs (Decidable (_ ∧ _))

section Scanning

variable {quote c : Char} {s content : List Char}

theorem ne_backslash_of_isQuote (h : isQuote quote = true) : quote ≠ '\\' := by
  intro heq
  rw [heq] at h
  exact absurd h (by decide)

theorem afterLiteral_escaped (quote e : Char) (s : List Char) :
    afterLiteral quote ('\\' :: e :: s) = afterLiteral quote s := by
  simp [afterLiteral]

theorem afterLiteral_quote (h : quote ≠ '\\') (s : List Char) :
    afterLiteral quote (quote :: s) = ' ' :: code s := by
  cases s <;> simp [afterLiteral, code, h]

theorem afterLiteral_plain (hc : c ≠ '\\') (hq : c ≠ quote) (s : List Char) :
    afterLiteral quote (c :: s) = afterLiteral quote s := by
  cases s <;> simp [afterLiteral, hc, hq]

theorem Content.afterLiteral_append (h : Content quote content) (rest : List Char) :
    afterLiteral quote (content ++ rest) = afterLiteral quote rest := by
  induction h with
  | nil => rfl
  | escaped _ ih => exact (afterLiteral_escaped ..).trans ih
  | plain hc hq _ ih => exact (afterLiteral_plain hc hq _).trans ih

theorem Content.afterLiteral_eq (h : Content quote content) (hquote : quote ≠ '\\') (rest : List Char) :
    afterLiteral quote (content ++ quote :: rest) = ' ' :: code rest := by
  rw [h.afterLiteral_append, afterLiteral_quote hquote]

theorem Content.unclosed_append (h : Content quote content) (hs : Unclosed quote s) : Unclosed quote (content ++ s) := by
  obtain ⟨rest, hrest, hs⟩ := hs
  refine ⟨content ++ rest, ?_, ?_⟩
  · induction h with
    | nil => exact hrest
    | escaped _ ih => exact ih.escaped
    | plain hc hq _ ih => exact ih.plain hc hq
  · cases hs with
    | inl hs => exact .inl (by rw [hs])
    | inr hs => exact .inr (by rw [hs, List.append_assoc])

theorem closed_or_unclosed (quote : Char) : (s : List Char) →
    (∃ content rest, Content quote content ∧ s = content ++ quote :: rest) ∨ Unclosed quote s
  | [] => .inr ⟨[], .nil, .inl rfl⟩
  | [c] => by
    by_cases hq : c = quote
    · exact .inl ⟨[], [], .nil, by rw [hq, List.nil_append]⟩
    · by_cases hc : c = '\\'
      · exact .inr ⟨[], .nil, .inr (by rw [hc, List.nil_append])⟩
      · exact .inr ⟨[c], Content.nil.plain hc hq, .inl rfl⟩
  | c :: e :: s => by
    by_cases hq : c = quote
    · exact .inl ⟨[], e :: s, .nil, by rw [hq, List.nil_append]⟩
    · by_cases hc : c = '\\'
      · refine (closed_or_unclosed quote s).imp (fun h => ?_) fun h => ?_
        · obtain ⟨content, rest, hcontent, rfl⟩ := h
          exact ⟨_, rest, hcontent.escaped, by rw [hc]; rfl⟩
        · rw [hc]
          exact Content.nil.escaped.unclosed_append h
      · refine (closed_or_unclosed quote (e :: s)).imp (fun h => ?_) fun h => ?_
        · obtain ⟨content, rest, hcontent, hs⟩ := h
          exact ⟨_, rest, hcontent.plain hc hq, by rw [hs, List.cons_append]⟩
        · exact (Content.nil.plain hc hq).unclosed_append h

theorem Unclosed.afterLiteral_eq (h : Unclosed quote s) (hquote : quote ≠ '\\') : afterLiteral quote s = [] := by
  obtain ⟨content, hcontent, rfl | rfl⟩ := h
  · rw [← List.append_nil s, hcontent.afterLiteral_append, afterLiteral]
  · simp [hcontent.afterLiteral_append, afterLiteral, hquote.symm]

theorem code_append (h : ∀ c ∈ s, isQuote c = false) (rest : List Char) : code (s ++ rest) = s ++ code rest := by
  induction s with
  | nil => rfl
  | cons c s ih =>
    rw [List.forall_mem_cons] at h
    simp [code, h.1, ih h.2]

end Scanning

section Inert

variable {s : List Char}

theorem inert_of_all {p : Char → Bool} (hp : p '"' = false ∧ p '\'' = false ∧ p 'w' = false)
    (h : s.all p = true) : ∀ c ∈ s, Inert c := by
  intro c hc
  have hne {d : Char} (hd : p d = false) : c ≠ d := by
    intro heq
    rw [← heq, List.all_eq_true.1 h c hc] at hd
    cases hd
  refine ⟨?_, hne hp.2.2⟩
  simp [isQuote, hne hp.1, hne hp.2.1]

theorem inert_digits (h : s.all Char.isDigit = true) : ∀ c ∈ s, Inert c := inert_of_all (by decide) h

theorem inert_blanks (h : ∀ c ∈ s, Text.isBlank c = true) : ∀ c ∈ s, Inert c :=
  inert_of_all (by decide) (List.all_eq_true.2 h)

theorem inert_of_dropWhile_digits (h : ∀ c ∈ s.dropWhile Char.isDigit, Inert c) : ∀ c ∈ s, Inert c := by
  intro c hc
  rw [← List.takeWhile_append_dropWhile (p := Char.isDigit) (l := s), List.mem_append] at hc
  cases hc with
  | inl hc => exact inert_digits List.all_takeWhile c hc
  | inr hc => exact h c hc

theorem inert_exponent (h : isExponent s = true) : ∀ c ∈ s, Inert c := by
  cases s with
  | nil => simp
  | cons mark s =>
    simp only [isExponent, Bool.and_eq_true, Bool.or_eq_true, beq_iff_eq] at h
    obtain ⟨⟨hmark, -⟩, hdigits⟩ := h
    have hinert : Inert mark := by
      cases hmark with
      | inl hlower => rw [hlower]; decide
      | inr hupper => rw [hupper]; decide
    refine List.forall_mem_cons.2 ⟨hinert, ?_⟩
    split at hdigits
    · exact List.forall_mem_cons.2 ⟨by decide, inert_digits hdigits⟩
    · exact List.forall_mem_cons.2 ⟨by decide, inert_digits hdigits⟩
    · exact inert_digits hdigits

theorem inert_decimal (h : isDecimal s = true) : ∀ c ∈ s, Inert c := by
  apply inert_of_dropWhile_digits
  rw [isDecimal] at h
  split at h
  · rename_i rest hrest
    rw [hrest]
    rw [Bool.and_eq_true] at h
    exact List.forall_mem_cons.2 ⟨by decide, inert_of_dropWhile_digits (inert_exponent h.2)⟩
  · rw [Bool.and_eq_true] at h
    exact inert_exponent h.2

theorem inert_number (h : isNumber s = true) : ∀ c ∈ s, Inert c := by
  unfold isNumber at h
  split at h
  · rw [Bool.and_eq_true] at h
    exact List.forall_mem_cons.2 ⟨by decide, List.forall_mem_cons.2 ⟨by decide, inert_of_all (by decide) h.2⟩⟩
  · rw [Bool.and_eq_true] at h
    exact List.forall_mem_cons.2 ⟨by decide, List.forall_mem_cons.2 ⟨by decide, inert_of_all (by decide) h.2⟩⟩
  · obtain ⟨suffix, hs, hsuffix, -⟩ := Text.stripsTail_dropTail isSuffix s
    rw [hs]
    exact List.forall_mem_append.2 ⟨inert_decimal h, inert_of_all (by decide) (List.all_eq_true.2 hsuffix)⟩

theorem inert_of_unsigned (h : ∀ c ∈ unsigned s, Inert c) : ∀ c ∈ s, Inert c := by
  unfold unsigned at h
  split at h
  · exact List.forall_mem_cons.2 ⟨by decide, h⟩
  · exact h

theorem inert_keyword (h : isKeyword s = true) : ∀ c ∈ s, Inert c := by
  simp only [isKeyword, Bool.or_eq_true, beq_iff_eq] at h
  obtain (rfl | rfl) | rfl := h
  · simp [Inert, isQuote]
  · simp [Inert, isQuote]
  · simp [Inert, isQuote]

theorem hasConstruction_eq_false {expr : String} (h : 'w' ∉ code expr.toList) : hasConstruction expr = false := by
  rw [hasConstruction, List.any_eq_false]
  intro word hword hnew
  rw [beq_iff_eq] at hnew
  exact h ((mem_splitOnP hword).2 'w' (by simp [hnew]))

theorem not_mem_of_inert (h : ∀ c ∈ s, Inert c) : 'w' ∉ s := fun hw => (h 'w' hw).2 rfl

theorem not_mem_code_of_inert (h : ∀ c ∈ s, Inert c) : 'w' ∉ code s := by
  have hcode := code_append (fun c hc => (h c hc).1) []
  rw [List.append_nil, code, List.append_nil] at hcode
  rw [hcode]
  exact not_mem_of_inert h

end Inert

theorem isQuoted_iff {s : List Char} :
    isQuoted s = true ↔ ∃ quote rest, isQuote quote = true ∧ s = quote :: rest ∧ rest.getLast? = some quote := by
  constructor
  · intro h
    unfold isQuoted at h
    split at h
    · rename_i quote c rest
      rw [Bool.and_eq_true, beq_iff_eq, List.getLast?_cons_cons] at h
      exact ⟨quote, c :: rest, h.1, rfl, h.2⟩
    · cases h
  · intro h
    obtain ⟨quote, rest, hquote, rfl, hlast⟩ := h
    cases rest with
    | nil => simp at hlast
    | cons c rest => simp [isQuoted, hquote, hlast]

theorem exists_closing {quote : Char} {tail after content rest : List Char} (hquote : quote ∉ after)
    (h : tail ++ after = content ++ quote :: rest) :
    ∃ between, tail = content ++ quote :: between ∧ rest = between ++ after := by
  obtain ⟨beyond, -, hafter⟩ | ⟨between, htail, hrest⟩ := List.append_eq_append_iff.1 h
  · rw [hafter] at hquote
    simp at hquote
  · cases between with
    | nil =>
      rw [List.nil_append] at hrest
      simp [← hrest] at hquote
    | cons c between =>
      rw [List.cons_append, List.cons.injEq] at hrest
      exact ⟨between, by rw [htail, hrest.1], hrest.2⟩

theorem compound_of_isQuoted {expr : String} (hquoted : isQuoted (Text.trim expr.toList) = true)
    (h : hasConstruction expr = true) : Compound expr := by
  obtain ⟨before, after, hexpr, hbefore, hafter⟩ := Text.exists_trim_append expr.toList
  obtain ⟨quote, tail, hquote, htrim, hlast⟩ := isQuoted_iff.1 hquoted
  have hne := ne_backslash_of_isQuote hquote
  have hcode : code expr.toList = before ++ afterLiteral quote (tail ++ after) := by
    rw [hexpr, htrim, code_append fun c hc => (inert_blanks hbefore c hc).1, List.cons_append, code, if_pos hquote]
  have hw : 'w' ∈ afterLiteral quote (tail ++ after) := by
    by_contra hw
    have hnone : 'w' ∉ code expr.toList := by
      rw [hcode, List.mem_append]
      exact not_or.2 ⟨not_mem_of_inert (inert_blanks hbefore), hw⟩
    rw [hasConstruction_eq_false hnone] at h
    cases h
  have houtside : quote ∉ after := by
    intro hmem
    rw [(inert_blanks hafter quote hmem).1] at hquote
    cases hquote
  obtain ⟨content, rest, hcontent, hsplit⟩ | hopen := closed_or_unclosed quote (tail ++ after)
  · obtain ⟨between, rfl, rfl⟩ := exists_closing houtside hsplit
    refine ⟨quote, content, between, hquote, hcontent, htrim, ?_⟩
    cases between with
    | nil =>
      -- the literal is the whole text, and what is left is blank
      rw [hsplit, hcontent.afterLiteral_eq hne, List.nil_append, List.mem_cons] at hw
      cases hw with
      | inl hw => exact absurd hw (by decide)
      | inr hw => exact absurd hw (not_mem_code_of_inert (inert_blanks hafter))
    | cons c between => simpa using hlast
  · rw [hopen.afterLiteral_eq hne] at hw
    cases hw

theorem compound_of_isLiteral {expr : String} (hliteral : isLiteral expr = true) (h : hasConstruction expr = true) :
    Compound expr := by
  simp only [isLiteral, Bool.or_eq_true] at hliteral
  have hinert (htrim : ∀ c ∈ Text.trim expr.toList, Inert c) : hasConstruction expr = false := by
    obtain ⟨before, after, hexpr, hbefore, hafter⟩ := Text.exists_trim_append expr.toList
    apply hasConstruction_eq_false
    apply not_mem_code_of_inert
    rw [hexpr]
    exact List.forall_mem_append.2 ⟨inert_blanks hbefore, List.forall_mem_append.2 ⟨htrim, inert_blanks hafter⟩⟩
  obtain (hquoted | hkeyword) | hnumber := hliteral
  · exact compound_of_isQuoted hquoted h
  · rw [hinert (inert_keyword hkeyword)] at h
    cases h
  · rw [hinert (inert_of_unsigned (inert_number hnumber))] at h
    cases h

theorem isLiteral_of_compound {expr : String} (h : Compound expr) : isLiteral expr = true := by
  obtain ⟨quote, content, rest, hquote, -, htrim, hlast⟩ := h
  have hquoted : isQuoted (Text.trim expr.toList) = true := by
    refine isQuoted_iff.2 ⟨quote, _, hquote, htrim, ?_⟩
    cases rest with
    | nil => simp at hlast
    | cons c rest => simpa using hlast
  simp [isLiteral, hquoted]

end Initializer

namespace Field

/-- An instance field whose initializer constructs something between a literal and a quote like those around it. -/
def HidesConstruction (f : Field) : Prop :=
  ∃ e, f.initializer = some e ∧ f.isConst = false ∧ f.isStatic = false ∧
    Initializer.hasConstruction e = true ∧ Initializer.Compound e

variable {f : Field}

theorem isInlineSafe_iff {policy : InitPolicy} : f.isInlineSafe policy = true ↔ ¬f.Deferred policy := by
  rw [← isDeferred_iff]
  cases hi : f.initializer with
  | none => simp [isDeferred, isInlineSafe, hi]
  | some e => simp [isDeferred, hi]

theorem HidesConstruction.deferred (h : f.HidesConstruction) :
    f.Deferred .deferConstructions ∧ ¬f.Deferred .deferNonLiteral := by
  obtain ⟨e, he, hconst, hstatic, hnew, hcompound⟩ := h
  refine ⟨⟨e, he, hconst, hstatic, by simp [InitPolicy.allows, hnew]⟩, fun hdeferred => ?_⟩
  obtain ⟨e', he', -, -, hrefused⟩ := hdeferred
  rw [he, Option.some.injEq] at he'
  rw [InitPolicy.allows, ← he', Initializer.isLiteral_of_compound hcompound] at hrefused
  cases hrefused

theorem hidesConstruction_of_deferred (h : f.Deferred .deferConstructions) (hliteral : ¬f.Deferred .deferNonLiteral) :
    f.HidesConstruction := by
  obtain ⟨e, he, hconst, hstatic, hrefused⟩ := h
  have hnew : Initializer.hasConstruction e = true := by simpa [InitPolicy.allows] using hrefused
  have hallowed : Initializer.isLiteral e = true := by
    by_contra hno
    exact hliteral ⟨e, he, hconst, hstatic, by simpa [InitPolicy.allows] using hno⟩
  exact ⟨e, he, hconst, hstatic, hnew, Initializer.compound_of_isLiteral hallowed hnew⟩

/-- What may stand beside a field under a policy may stand there under the policies that defer less, with one
exception: a text that constructs something passes for a literal exactly if it begins with a literal and ends, behind
it, with the same quote. -/
theorem policies_ordered_unless_hidden (f : Field) :
    (f.isInlineSafe .deferConstructions = true → f.isInlineSafe .inline = true) ∧
    ((f.isInlineSafe .deferNonLiteral = true → f.isInlineSafe .deferConstructions = true) ↔
      ¬f.HidesConstruction) ∧
    ∀ e, Initializer.isLiteral e = true → ¬Initializer.Compound e → Initializer.hasConstruction e = false := by
  refine ⟨?_, ?_, ?_⟩
  · intro _
    rw [isInlineSafe_iff]
    intro h
    obtain ⟨e, -, -, -, hrefused⟩ := h
    cases hrefused
  · rw [isInlineSafe_iff, isInlineSafe_iff]
    constructor
    · intro hordered hhides
      obtain ⟨hdeferred, hliteral⟩ := hhides.deferred
      exact hordered hliteral hdeferred
    · intro hhides hliteral hdeferred
      exact hhides (hidesConstruction_of_deferred hdeferred hliteral)
  · intro e hliteral hcompound
    by_contra hnew
    exact hcompound (Initializer.compound_of_isLiteral hliteral (by simpa using hnew))

theorem number_ordered : Initializer.isLiteral " -1.5e3f " = true ∧ ¬Initializer.Compound " -1.5e3f " ∧
    Initializer.hasConstruction " -1.5e3f " = false := by
  have hliteral : Initializer.isLiteral " -1.5e3f " = true := by decide +kernel
  have hcompound : ¬Initializer.Compound " -1.5e3f " := by
    intro h
    obtain ⟨quote, content, rest, hquote, -, htrim, -⟩ := h
    have hhead : (Text.trim " -1.5e3f ".toList).head? = some '-' := by decide +kernel
    rw [htrim, List.head?_cons, Option.some.injEq] at hhead
    rw [hhead] at hquote
    exact absurd hquote (by decide)
  let f : Field := { type := .primitive .number, name := "x" }
  exact ⟨hliteral, hcompound, (policies_ordered_unless_hidden f).2.2 _ hliteral hcompound⟩

def greeting : Field where
  type := .named ⟨"String", none⟩
  name := "greeting"
  initializer := some "\"a\" + new B() + \"c\""

theorem greeting_not_ordered : greeting.isInlineSafe .deferNonLiteral = true ∧
    greeting.isInlineSafe .deferConstructions = false ∧
    Initializer.isLiteral "\"a\" + new B() + \"c\"" = true ∧
    Initializer.hasConstruction "\"a\" + new B() + \"c\"" = true := by
  decide +kernel

end Field

end Stencil
