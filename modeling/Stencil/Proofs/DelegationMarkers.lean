import Stencil.Emission.Constructor
import Stencil.Proofs.TextPieces

/-! Marked calls of constructors. A known marker is found as a prefix of the line, an unknown one by what stands
in front of the first parenthesis; here both are described by the latter. Main statement: together they read every line
in one way. -/
namespace Stencil

namespace Delegation

def callHead (line : List Char) : List Char := Text.trimEnd (line.takeWhile (· ≠ '('))

def callArgs (line : List Char) : List Char := line.dropWhile (· ≠ '(')

def marker : Delegation → List Char
  | sameClass _ => selfMarker
  | base _ => baseMarker

def args : Delegation → List Char
  | sameClass args => args
  | base args => args

/-- The line is the marked call: the marker is what stands in front of the first parenthesis, blanks aside, and the
arguments reach from there to the end. -/
def WrittenOn (line : List Char) (g : Delegation) : Prop :=
  '(' ∈ line ∧ callHead line = g.marker ∧ callArgs line = g.args

def UnknownMarker (line : List Char) : Prop :=
  '(' ∈ line ∧ (callHead line ≠ selfMarker ∧ callHead line ≠ baseMarker) ∧
    ∃ word, callHead line = word ++ markerEnd ∧ word ≠ [] ∧ ∀ c ∈ word, Text.isAlphabetic c = true

variable {line head blanks args : List Char}

theorem callArgs_eq_cons (h : '(' ∈ line) : ∃ rest, callArgs line = '(' :: rest := by
  cases hd : callArgs line with
  | nil =>
    have hall := List.dropWhile_eq_nil_iff.1 hd '(' h
    simp at hall
  | cons c rest =>
    have hc := List.head?_dropWhile_not (· ≠ '(') line
    rw [callArgs] at hd
    rw [hd] at hc
    exact ⟨rest, by simpa using hc⟩

theorem exists_call_split (line : List Char) :
    ∃ blanks, (∀ c ∈ blanks, Text.isBlank c = true) ∧ line = callHead line ++ (blanks ++ callArgs line) := by
  obtain ⟨blanks, hhead, hb⟩ := Text.exists_trimEnd_append (line.takeWhile (· ≠ '('))
  refine ⟨blanks, hb, ?_⟩
  calc line = line.takeWhile (· ≠ '(') ++ callArgs line := List.takeWhile_append_dropWhile.symm
    _ = callHead line ++ blanks ++ callArgs line := by rw [callHead, ← hhead]
    _ = callHead line ++ (blanks ++ callArgs line) := List.append_assoc ..

section Call

variable (hopen : '(' ∉ head) (hb : ∀ c ∈ blanks, Text.isBlank c = true)
include hopen hb

theorem ne_open_of_mem {c : Char} (hc : c ∈ head ++ blanks) : decide (c ≠ '(') = true := by
  rw [decide_eq_true_iff]
  intro heq
  rw [heq] at hc
  cases List.mem_append.1 hc with
  | inl hhead => exact hopen hhead
  | inr hblank => exact absurd (hb _ hblank) (by decide)

theorem callHead_call (htrim : Text.trimEnd head = head) :
    callHead (head ++ blanks ++ '(' :: args) = head := by
  rw [callHead, List.takeWhile_append_of_pos fun c hc => ne_open_of_mem hopen hb hc,
    List.takeWhile_cons_of_neg (by simp), List.append_nil, Text.trimEnd_append_blank hb, htrim]

theorem callArgs_call : callArgs (head ++ blanks ++ '(' :: args) = '(' :: args := by
  rw [callArgs, List.dropWhile_append_of_pos fun c hc => ne_open_of_mem hopen hb hc,
    List.dropWhile_cons_of_neg (by simp)]

end Call

theorem args?_eq_some_iff {marker : List Char} (hopen : '(' ∉ marker) (htrim : Text.trimEnd marker = marker) :
    args? marker line = some args ↔ '(' ∈ line ∧ callHead line = marker ∧ callArgs line = args := by
  constructor
  · intro h
    cases hp : marker.isPrefixOf? line with
    | none => simp [args?, hp] at h
    | some rest =>
      rw [List.isPrefixOf?_eq_some_iff_append_eq] at hp
      obtain ⟨blanks, hrest, hb⟩ := Text.exists_append_trimStart rest
      cases ht : Text.trimStart rest with
      | nil => simp [args?, List.isPrefixOf?_eq_some_iff_append_eq.2 hp, ht] at h
      | cons c tail =>
        simp only [args?, List.isPrefixOf?_eq_some_iff_append_eq.2 hp, ht, List.head?_cons, Option.some.injEq,
          Option.ite_none_right_eq_some] at h
        obtain ⟨rfl, rfl⟩ := h
        rw [ht] at hrest
        -- neither the marker nor the blanks hold a parenthesis, so this one is the first of the line
        rw [← hp, hrest, ← List.append_assoc]
        exact ⟨by simp, callHead_call hopen hb htrim, callArgs_call hopen hb⟩
  · intro h
    obtain ⟨hmem, rfl, rfl⟩ := h
    obtain ⟨blanks, hb, hline⟩ := exists_call_split line
    obtain ⟨rest, hargs⟩ := callArgs_eq_cons hmem
    have hp : (callHead line).isPrefixOf? line = some (blanks ++ callArgs line) :=
      List.isPrefixOf?_eq_some_iff_append_eq.2 hline.symm
    have ht : Text.trimStart (blanks ++ callArgs line) = callArgs line := by
      rw [Text.trimStart, List.dropWhile_append_of_pos hb, hargs]
      exact List.dropWhile_cons_of_neg (by decide)
    simp only [args?, hp, ht]
    simp [hargs]

theorem args?_eq_none_iff {marker : List Char} (hopen : '(' ∉ marker) (htrim : Text.trimEnd marker = marker) :
    args? marker line = none ↔ ('(' ∈ line → callHead line ≠ marker) := by
  simp [Option.eq_none_iff_forall_ne_some, args?_eq_some_iff hopen htrim]

theorem markerWord?_eq_some_iff {word : List Char} :
    markerWord? line = some word ↔ '(' ∈ line ∧ callHead line = word ++ markerEnd := by
  have hrev : (∃ w, markerEnd.reverse ++ w = (callHead line).reverse ∧ w.reverse = word) ↔
      callHead line = word ++ markerEnd := by
    constructor
    · intro h
      obtain ⟨w, hw, rfl⟩ := h
      rw [← List.reverse_reverse (callHead line), ← hw, List.reverse_append, List.reverse_reverse]
    · intro h
      exact ⟨word.reverse, by simp [h]⟩
  rw [← hrev, markerWord?, ← callHead]
  by_cases hmem : '(' ∈ line
  · simp [hmem]
  · simp [hmem]

theorem isMarked_iff : isMarked line = true ↔ '(' ∈ line ∧ ∃ word, callHead line = word ++ markerEnd ∧
    word ≠ [] ∧ ∀ c ∈ word, Text.isAlphabetic c = true := by
  constructor
  · intro h
    cases hw : markerWord? line with
    | none => simp [isMarked, hw] at h
    | some word =>
      obtain ⟨hmem, hhead⟩ := markerWord?_eq_some_iff.1 hw
      refine ⟨hmem, word, hhead, ?_⟩
      simpa [isMarked, hw] using h
  · intro h
    obtain ⟨hmem, word, hhead, hword⟩ := h
    have hw := markerWord?_eq_some_iff.2 ⟨hmem, hhead⟩
    simpa [isMarked, hw] using hword

theorem parse_eq_error_iff : parse line = .error () ↔ UnknownMarker line := by
  have hself : args? selfMarker line = none ↔ ('(' ∈ line → callHead line ≠ selfMarker) :=
    args?_eq_none_iff (by decide) (by decide)
  have hbase : args? baseMarker line = none ↔ ('(' ∈ line → callHead line ≠ baseMarker) :=
    args?_eq_none_iff (by decide) (by decide)
  calc parse line = .error ()
    _ ↔ (args? selfMarker line = none ∧ args? baseMarker line = none) ∧ isMarked line = true := by
      cases hs : args? selfMarker line <;> cases hg : args? baseMarker line <;> simp [parse, hs, hg]
    _ ↔ UnknownMarker line := by
      rw [hself, hbase, isMarked_iff, UnknownMarker]
      constructor
      · intro h
        obtain ⟨⟨hs, hg⟩, hmem, hword⟩ := h
        exact ⟨hmem, ⟨hs hmem, hg hmem⟩, hword⟩
      · intro h
        obtain ⟨hmem, ⟨hs, hg⟩, hword⟩ := h
        exact ⟨⟨fun _ => hs, fun _ => hg⟩, hmem, hword⟩

theorem parse_eq_ok_some_iff {g : Delegation} : parse line = .ok (some g) ↔ g.WrittenOn line := by
  have hself (args : List Char) : args? selfMarker line = some args ↔ (sameClass args).WrittenOn line :=
    args?_eq_some_iff (by decide) (by decide)
  have hbase (args : List Char) : args? baseMarker line = some args ↔ (base args).WrittenOn line :=
    args?_eq_some_iff (by decide) (by decide)
  have hparse : parse line = .ok (some g) ↔ (∃ args, args? selfMarker line = some args ∧ sameClass args = g) ∨
      args? selfMarker line = none ∧ ∃ args, args? baseMarker line = some args ∧ base args = g := by
    cases hs : args? selfMarker line with
    | some args => simp [parse, hs]
    | none =>
      cases hb : args? baseMarker line with
      | some args => simp [parse, hs, hb]
      | none => cases hm : isMarked line <;> simp [parse, hs, hb, hm]
  rw [hparse]
  cases g with
  | sameClass args => simp [hself]
  | base args =>
    -- a line has one head, so it cannot have the other marker too
    have hmarkers : baseMarker ≠ selfMarker := by decide
    have hnone (h : (base args).WrittenOn line) : args? selfMarker line = none := by
      rw [args?_eq_none_iff (by decide) (by decide), h.2.1]
      exact fun _ => hmarkers
    simpa [hbase] using hnone

theorem parse_eq_ok_none_iff :
    parse line = .ok none ↔ ¬UnknownMarker line ∧ ∀ g : Delegation, ¬g.WrittenOn line := by
  rw [← parse_eq_error_iff]
  simp only [← parse_eq_ok_some_iff]
  rcases parse line with ⟨⟩ | _ | g <;> simp

def ForeignWord (word : List Char) : Prop :=
  word ≠ [] ∧ (∀ c ∈ word, Text.isAlphabetic c = true) ∧ word ≠ "this".toList ∧ word ≠ "super".toList

theorem unknownMarker_iff : UnknownMarker line ↔
    '(' ∈ line ∧ ∃ word, callHead line = word ++ "-call".toList ∧ ForeignWord word := by
  -- the words of the known markers
  have hself : selfMarker = "this".toList ++ markerEnd := rfl
  have hbase : baseMarker = "super".toList ++ markerEnd := rfl
  refine and_congr_right fun _ => ?_
  constructor
  · intro h
    obtain ⟨⟨hs, hb⟩, word, hhead, hne, hletters⟩ := h
    rw [hhead, hself, ne_eq, List.append_left_inj] at hs
    rw [hhead, hbase, ne_eq, List.append_left_inj] at hb
    exact ⟨word, hhead, hne, hletters, hs, hb⟩
  · intro h
    obtain ⟨word, hhead, hne, hletters, hs, hb⟩ := h
    change callHead line = word ++ markerEnd at hhead
    refine ⟨⟨?_, ?_⟩, word, hhead, hne, hletters⟩
    · rwa [hhead, hself, ne_eq, List.append_left_inj]
    · rwa [hhead, hbase, ne_eq, List.append_left_inj]

/-- How a line is read, told by what stands in front of its first parenthesis: a call of another constructor with a
known marker, a call with a marker of some other word, or no such call. -/
inductive Reads (line : List Char) : Except Unit (Option Delegation) → Prop
  | sameClass (hopen : '(' ∈ line) (hhead : callHead line = "this-call".toList) :
      Reads line (.ok (some (.sameClass (callArgs line))))
  | base (hopen : '(' ∈ line) (hhead : callHead line = "super-call".toList) :
      Reads line (.ok (some (.base (callArgs line))))
  | unknown {word : List Char} (hopen : '(' ∈ line) (hhead : callHead line = word ++ "-call".toList)
      (hword : ForeignWord word) : Reads line (.error ())
  | plain (h : ¬('(' ∈ line ∧ (callHead line = "this-call".toList ∨ callHead line = "super-call".toList ∨
      ∃ word, callHead line = word ++ "-call".toList ∧ ForeignWord word))) : Reads line (.ok none)

theorem reads_parse (line : List Char) : Reads line (parse line) := by
  rcases hparse : parse line with ⟨⟩ | _ | g
  · obtain ⟨hopen, word, hhead, hword⟩ := unknownMarker_iff.1 (parse_eq_error_iff.1 hparse)
    exact .unknown hopen hhead hword
  · obtain ⟨hunknown, hcall⟩ := parse_eq_ok_none_iff.1 hparse
    refine .plain fun h => ?_
    obtain ⟨hopen, hself | hbase | hword⟩ := h
    · exact hcall (.sameClass (callArgs line)) ⟨hopen, hself, rfl⟩
    · exact hcall (.base (callArgs line)) ⟨hopen, hbase, rfl⟩
    · exact hunknown (unknownMarker_iff.2 ⟨hopen, hword⟩)
  · obtain ⟨hopen, hhead, hargs⟩ := parse_eq_ok_some_iff.1 hparse
    cases g with
    | sameClass args =>
      obtain rfl : callArgs line = args := hargs
      exact .sameClass hopen hhead
    | base args =>
      obtain rfl : callArgs line = args := hargs
      exact .base hopen hhead

theorem Reads.parse_eq {reading : Except Unit (Option Delegation)} (h : Reads line reading) :
    parse line = reading := by
  cases h with
  | sameClass hopen hhead => exact parse_eq_ok_some_iff.2 ⟨hopen, hhead, rfl⟩
  | base hopen hhead => exact parse_eq_ok_some_iff.2 ⟨hopen, hhead, rfl⟩
  | unknown hopen hhead hword => exact parse_eq_error_iff.2 (unknownMarker_iff.2 ⟨hopen, _, hhead, hword⟩)
  | plain h =>
    refine parse_eq_ok_none_iff.2 ⟨fun hunknown => ?_, fun g hg => ?_⟩
    · obtain ⟨hopen, hword⟩ := unknownMarker_iff.1 hunknown
      exact h ⟨hopen, .inr (.inr hword)⟩
    · obtain ⟨hopen, hhead, -⟩ := hg
      cases g with
      | sameClass args => exact h ⟨hopen, .inl hhead⟩
      | base args => exact h ⟨hopen, .inr (.inl hhead)⟩

/-- Every line has one reading, which is what is found by looking for the known markers first. -/
theorem parse_eq_iff_reads (line : List Char) (reading : Except Unit (Option Delegation)) :
    parse line = reading ↔ Reads line reading := by
  constructor
  · intro h
    exact h ▸ reads_parse line
  · exact Reads.parse_eq

end Delegation

end Stencil
