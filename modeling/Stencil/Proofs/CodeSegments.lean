import Stencil.Proofs.InitializerLiterals

/-! The code of an expression. A text is in exactly one way a sequence of pieces of code and literals, of which only the
last may be unclosed. Main statement: an expression constructs something exactly if `new` is a word of one of its pieces
of code, so what its literals hold does not matter. -/
namespace Stencil

namespace Initializer

@[ext] structure Code where
  chars : List Char
  outside : ∀ c ∈ chars, isQuote c = false

@[ext] structure Literal where
  quote : Char
  content : List Char
  opens : isQuote quote = true
  inside : Content quote content

@[ext] structure OpenLiteral where
  quote : Char
  content : List Char
  opens : isQuote quote = true
  inside : Unclosed quote content

/-- Code and literals in turn, from the left. Nothing follows a literal that is not closed. -/
inductive Segments
  | last (c : Code)
  | unclosed (c : Code) (l : OpenLiteral)
  | closed (c : Code) (l : Literal) (rest : Segments)

namespace Segments

def text : Segments → List Char
  | last c => c.chars
  | unclosed c l => c.chars ++ l.quote :: l.content
  | closed c l rest => c.chars ++ l.quote :: (l.content ++ l.quote :: rest.text)

def codes : Segments → List Code
  | last c => [c]
  | unclosed c _ => [c]
  | closed c _ rest => c :: rest.codes

/-- The same text but for the contents of closed literals. -/
inductive Refilled : Segments → Segments → Prop
  | last (c : Code) : Refilled (last c) (last c)
  | unclosed (c : Code) (l : OpenLiteral) : Refilled (unclosed c l) (unclosed c l)
  | closed (c : Code) {l l' : Literal} {rest rest' : Segments} (hquote : l'.quote = l.quote)
      (h : Refilled rest rest') : Refilled (closed c l rest) (closed c l' rest')

end Segments

section Uniqueness

variable {quote : Char} {s content content' rest rest' : List Char}

theorem Content.closing_unique (h : Content quote content) (h' : Content quote content') (hquote : quote ≠ '\\')
    (heq : content ++ quote :: rest = content' ++ quote :: rest') : content = content' ∧ rest = rest' := by
  induction h generalizing content' with
  | nil =>
    cases h' with
    | nil => exact ⟨rfl, (List.cons.inj heq).2⟩
    | escaped _ => exact absurd (List.cons.inj heq).1 hquote
    | plain _ hq _ => exact absurd (List.cons.inj heq).1.symm hq
  | escaped _ ih =>
    cases h' with
    | nil => exact absurd (List.cons.inj heq).1.symm hquote
    | escaped h' =>
      simp only [List.cons_append, List.cons.injEq, true_and] at heq
      obtain ⟨hcontent, hrest⟩ := ih h' heq.2
      exact ⟨by rw [heq.1, hcontent], hrest⟩
    | plain hc _ _ => exact absurd (List.cons.inj heq).1.symm hc
  | plain hc hq _ ih =>
    cases h' with
    | nil => exact absurd (List.cons.inj heq).1 hq
    | escaped _ => exact absurd (List.cons.inj heq).1 hc
    | plain _ _ h' =>
      rw [List.cons_append, List.cons_append, List.cons.injEq] at heq
      obtain ⟨hcontent, hrest⟩ := ih h' heq.2
      exact ⟨by rw [heq.1, hcontent], hrest⟩

theorem Unclosed.ne_closed (h : Unclosed quote s) (h' : Content quote content) (hquote : quote ≠ '\\') :
    s ≠ content ++ quote :: rest := by
  intro heq
  have hafter := h'.afterLiteral_eq hquote rest
  rw [← heq, h.afterLiteral_eq hquote] at hafter
  cases hafter

end Uniqueness

namespace Segments

def first : Segments → Code
  | last c => c
  | unclosed c _ => c
  | closed c _ _ => c

def tail : Segments → List Char
  | last _ => []
  | unclosed _ l => l.quote :: l.content
  | closed _ l rest => l.quote :: (l.content ++ l.quote :: rest.text)

theorem text_eq_append (s : Segments) : s.text = s.first.chars ++ s.tail := by
  cases s with
  | last c => exact (List.append_nil c.chars).symm
  | unclosed c l => rfl
  | closed c l rest => rfl

theorem isQuote_tail (s : Segments) : ∀ c ∈ s.tail.head?, isQuote c = true := by
  cases s with
  | last c => simp [tail]
  | unclosed c l => simpa [tail] using l.opens
  | closed c l rest => simpa [tail] using l.opens

theorem first_tail_of_text_eq {s s' : Segments} (h : s.text = s'.text) : s.first = s'.first ∧ s.tail = s'.tail := by
  rw [text_eq_append, text_eq_append] at h
  obtain ⟨hfirst, htail⟩ := Text.append_inj_of_boundary s.first.outside s'.first.outside s.isQuote_tail s'.isQuote_tail h
  exact ⟨Code.ext hfirst, htail⟩

theorem text_injective : Function.Injective text := by
  intro s
  induction s with
  | last c =>
    intro s' h
    obtain ⟨hfirst, htail⟩ := first_tail_of_text_eq h
    cases s' with
    | last c' => exact congrArg last hfirst
    | unclosed c' l' => cases htail
    | closed c' l' rest' => cases htail
  | unclosed c l =>
    intro s' h
    obtain ⟨hfirst, htail⟩ := first_tail_of_text_eq h
    cases s' with
    | last c' => cases htail
    | unclosed c' l' =>
      have hl : l = l' := OpenLiteral.ext (List.cons.inj htail).1 (List.cons.inj htail).2
      rw [hl, show c = c' from hfirst]
    | closed c' l' rest' =>
      obtain ⟨hquote, hcontent⟩ := List.cons.inj htail
      have hopen := l.inside
      rw [hquote] at hopen
      exact absurd hcontent (hopen.ne_closed l'.inside (ne_backslash_of_isQuote l'.opens))
  | closed c l rest ih =>
    intro s' h
    obtain ⟨hfirst, htail⟩ := first_tail_of_text_eq h
    cases s' with
    | last c' => cases htail
    | unclosed c' l' =>
      obtain ⟨hquote, hcontent⟩ := List.cons.inj htail
      have hopen := l'.inside
      rw [← hquote] at hopen
      exact absurd hcontent.symm (hopen.ne_closed l.inside (ne_backslash_of_isQuote l.opens))
    | closed c' l' rest' =>
      obtain ⟨hquote, hcontent⟩ := List.cons.inj htail
      have hinside := l'.inside
      rw [← hquote] at hinside hcontent
      obtain ⟨hsame, hrest⟩ := l.inside.closing_unique hinside (ne_backslash_of_isQuote l.opens) hcontent
      rw [show c = c' from hfirst, ih hrest, Literal.ext hquote hsame]

theorem exists_text_eq (chars : List Char) : ∃ s : Segments, s.text = chars := by
  induction hn : chars.length using Nat.strong_induction_on generalizing chars with
  | _ n ih =>
    have hsplit := List.takeWhile_append_dropWhile (p := (!isQuote ·)) (l := chars)
    let c : Code := ⟨chars.takeWhile (!isQuote ·), fun x hx => by simpa using List.mem_takeWhile_imp hx⟩
    cases hrest : chars.dropWhile (!isQuote ·) with
    | nil =>
      rw [hrest, List.append_nil] at hsplit
      exact ⟨last c, hsplit⟩
    | cons quote inside =>
      have hquote : isQuote quote = true := by simpa [hrest] using List.head?_dropWhile_not (!isQuote ·) chars
      rw [hrest] at hsplit
      obtain ⟨content, rest, hcontent, rfl⟩ | hopen := closed_or_unclosed quote inside
      · have hlt : rest.length < n := by
          rw [← hn, ← hsplit]
          simp only [List.length_append, List.length_cons]
          omega
        obtain ⟨s, hs⟩ := ih _ hlt rest rfl
        exact ⟨closed c ⟨quote, content, hquote, hcontent⟩ s, by rw [text, hs, hsplit]⟩
      · exact ⟨unclosed c ⟨quote, inside, hquote, hopen⟩, hsplit⟩

theorem code_eq_self (c : Code) : code c.chars = c.chars := by
  simpa [code] using code_append c.outside []

theorem words_append_blank (s t : List Char) : words (s ++ ' ' :: t) = words s ++ words t :=
  List.splitOnP_append_cons (p := (!Text.isWordChar ·)) s t (by decide +kernel)

theorem words_code_text (s : Segments) : words (code s.text) = s.codes.flatMap fun c => words c.chars := by
  induction s with
  | last c => simp [text, codes, code_eq_self]
  | unclosed c l =>
    have hafter := l.inside.afterLiteral_eq (ne_backslash_of_isQuote l.opens)
    simp [text, codes, code_append c.outside, code, l.opens, hafter]
  | closed c l rest ih =>
    have hafter := l.inside.afterLiteral_eq (ne_backslash_of_isQuote l.opens) rest.text
    rw [text, code_append c.outside, code, if_pos l.opens, hafter, words_append_blank, ih, codes, List.flatMap_cons]

theorem Refilled.codes_eq {s s' : Segments} (h : s.Refilled s') : s'.codes = s.codes := by
  induction h with
  | last c => rfl
  | unclosed c l => rfl
  | closed c _ _ ih => rw [codes, codes, ih]

end Segments

theorem mem_words_iff {word s : List Char} : word ∈ words s ↔ Text.MaximalRun Text.isWordChar s word := by
  rw [words, Text.mem_splitOnP_iff]
  simp only [Bool.not_not]

theorem hasConstruction_eq {expr : String} {s : Segments} (h : s.text = expr.toList) :
    hasConstruction expr = s.codes.any fun c => (words c.chars).any (· == ['n', 'e', 'w']) := by
  rw [hasConstruction, ← h, s.words_code_text, List.any_flatMap]

/-- A text has one division into code and literals, and it constructs something exactly if `new` is a word of the code.
Other contents of its literals do not change whether a field is deferred. -/
theorem constructions_stand_in_code (expr : String) : (∃! s : Segments, s.text = expr.toList) ∧
    ∀ s : Segments, s.text = expr.toList →
      (hasConstruction expr = true ↔ ∃ c ∈ s.codes, Text.MaximalRun Text.isWordChar c.chars ['n', 'e', 'w']) ∧
      ∀ s', s.Refilled s' → ∀ f : Field, f.initializer = some expr →
        { f with initializer := some (.ofList s'.text) }.isDeferred .deferConstructions =
          f.isDeferred .deferConstructions := by
  refine ⟨?_, fun s hs => ⟨?_, fun s' hrefilled f hf => ?_⟩⟩
  · obtain ⟨s, hs⟩ := Segments.exists_text_eq expr.toList
    exact ⟨s, hs, fun s' hs' => Segments.text_injective (hs'.trans hs.symm)⟩
  · rw [hasConstruction_eq hs]
    simp only [List.any_eq_true, beq_iff_eq, exists_eq_right, mem_words_iff]
  · have hsame : hasConstruction (.ofList s'.text) = hasConstruction expr := by
      rw [hasConstruction_eq hs, hasConstruction_eq String.toList_ofList.symm, hrefilled.codes_eq]
    simp [Field.isDeferred, Field.isInlineSafe, hf, InitPolicy.allows, hsame]

def labelled : Segments :=
  .closed ⟨"label(".toList, Text.forall_of_any_eq_false rfl⟩
    ⟨'"', "new".toList, rfl, .plain (by decide) (by decide) (.plain (by decide) (by decide)
      (.plain (by decide) (by decide) .nil))⟩
    (.last ⟨", new Point())".toList, Text.forall_of_any_eq_false rfl⟩)

def relabelled : Segments :=
  .closed ⟨"label(".toList, Text.forall_of_any_eq_false rfl⟩ ⟨'"', ['\\', '"'], rfl, .escaped .nil⟩
    (.last ⟨", new Point())".toList, Text.forall_of_any_eq_false rfl⟩)

def caption (expr : String) : Field where
  type := .named ⟨"String", none⟩
  name := "caption"
  initializer := some expr

theorem caption_constructs : labelled.text = "label(\"new\", new Point())".toList ∧
    relabelled.text = "label(\"\\\"\", new Point())".toList ∧ labelled.Refilled relabelled ∧
    (hasConstruction "label(\"new\", new Point())" = true ↔
      ∃ c ∈ labelled.codes, Text.MaximalRun Text.isWordChar c.chars ['n', 'e', 'w']) ∧
    (caption (.ofList relabelled.text)).isDeferred .deferConstructions =
      (caption "label(\"new\", new Point())").isDeferred .deferConstructions := by
  have htext : labelled.text = "label(\"new\", new Point())".toList := by decide +kernel
  have hrefilled : labelled.Refilled relabelled := .closed _ rfl (.last _)
  obtain ⟨hiff, hdeferred⟩ := (constructions_stand_in_code _).2 labelled htext
  exact ⟨htext, by decide +kernel, hrefilled, hiff, hdeferred relabelled hrefilled (caption _) rfl⟩

end Initializer

end Stencil
