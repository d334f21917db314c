import Stencil.Text.Case
import Stencil.Proofs.TextPieces
import Mathlib.Data.List.Basic

/-! Casing of identifiers. An upper-case mapping gives characters that it leaves alone, and a separator only from
itself; so pascal case turns a separator into concatenation, leaves none, and changes nothing the second time. -/
namespace Stencil.Text

section Masks

/-- The numbers of a list as the bits of one number, so that long lists are compared in one bitwise step. -/
def mask (ns : List Nat) : Nat := ns.foldr (fun n bits => bits ||| 1 <<< n) 0

theorem testBit_mask (ns : List Nat) (n : Nat) : (mask ns).testBit n = true ↔ n ∈ ns := by
  induction ns with
  | nil => simp [mask]
  | cons m ns ih =>
    have hcons : mask (m :: ns) = mask ns ||| 1 <<< m := rfl
    rw [hcons, Nat.testBit_or, Bool.or_eq_true, ih, Nat.one_shiftLeft, Nat.testBit_two_pow, decide_eq_true_eq,
      List.mem_cons, or_comm, eq_comm]

theorem disjoint_of_mask {a b : List Nat} (h : mask a &&& mask b = 0) : a.Disjoint b := by
  intro n ha hb
  have hbit : (mask a &&& mask b).testBit n = true := by
    rw [Nat.testBit_and, (testBit_mask a n).2 ha, (testBit_mask b n).2 hb, Bool.and_self]
  rw [h, Nat.zero_testBit] at hbit
  cases hbit

end Masks

section Mappings

def CaseRun.points (r : CaseRun) : List Nat := List.range' r.first ((r.last - r.first) / r.stride + 1) r.stride

theorem CaseRun.mem_points {r : CaseRun} {n : Nat} (h : r.covers n = true) : n ∈ r.points := by
  simp only [covers, Bool.and_eq_true, decide_eq_true_eq, beq_iff_eq] at h
  obtain ⟨⟨hfirst, hlast⟩, hstride⟩ := h
  have hsteps : r.stride * ((n - r.first) / r.stride) = n - r.first :=
    Nat.mul_div_cancel' (Nat.dvd_of_mod_eq_zero hstride)
  refine List.mem_range'.2 ⟨(n - r.first) / r.stride, ?_, ?_⟩
  · exact Nat.lt_succ_of_le (Nat.div_le_div_right (Nat.sub_le_sub_right hlast r.first))
  · omega

variable (sequences : List (Nat × List Nat)) (runs : List CaseRun)

def casePoints : List Nat := sequences.map Prod.fst ++ runs.flatMap CaseRun.points

def caseImages : List (List Nat) :=
  sequences.map Prod.snd ++ runs.flatMap fun r => r.points.map fun (n : Nat) => [(n + r.shift).toNat]

variable {sequences runs}

theorem mapCase_cases (c : Char) :
    mapCase sequences runs c = [c] ∨ c.toNat ∈ casePoints sequences runs ∧
      ∃ ns ∈ caseImages sequences runs, mapCase sequences runs c = ns.map Char.ofNat := by
  unfold mapCase
  split
  next ns hns =>
    obtain ⟨before, after, rfl, -⟩ := List.lookup_eq_some_iff.1 hns
    exact .inr ⟨by simp [casePoints], ns, by simp [caseImages], rfl⟩
  next =>
    split
    next r hr =>
      have hmem : r ∈ runs := List.mem_of_find?_eq_some hr
      have hcovers : r.covers c.toNat = true := by simpa using List.find?_some hr
      have hpoint := CaseRun.mem_points hcovers
      refine .inr ⟨?_, [(c.toNat + r.shift).toNat], ?_, rfl⟩
      · exact List.mem_append_right _ (List.mem_flatMap.2 ⟨r, hmem, hpoint⟩)
      · exact List.mem_append_right _ (List.mem_flatMap.2 ⟨r, hmem, List.mem_map_of_mem hpoint⟩)
    next => exact .inl rfl

theorem ne_nil_of_mem_caseImages (hseq : ∀ entry ∈ sequences, entry.2 ≠ []) {ns : List Nat}
    (h : ns ∈ caseImages sequences runs) : ns ≠ [] := by
  simp only [caseImages, List.mem_append, List.mem_map, List.mem_flatMap] at h
  obtain ⟨entry, hentry, rfl⟩ | ⟨r, -, n, -, rfl⟩ := h
  · exact hseq entry hentry
  · exact List.cons_ne_nil _ _

end Mappings

section Upper

def asciiRun : CaseRun := ⟨0x61, 0x7A, 1, -32⟩

def upperPoints : List Nat := casePoints [] [asciiRun] ++ casePoints upperSequences upperRuns

def upperImages : List (List Nat) := caseImages [] [asciiRun] ++ caseImages upperSequences upperRuns

theorem toUpper_eq_mapCase {c : Char} (h : c.toNat < 128) : [c.toUpper] = mapCase [] [asciiRun] c := by
  have hall : ∀ n < 128, [(Char.ofNat n).toUpper] = mapCase [] [asciiRun] (Char.ofNat n) := by decide +kernel
  simpa using hall c.toNat h

theorem upper_cases (c : Char) :
    upper c = [c] ∨ c.toNat ∈ upperPoints ∧ ∃ ns ∈ upperImages, upper c = ns.map Char.ofNat := by
  unfold upper
  split
  next h =>
    rw [toUpper_eq_mapCase h]
    refine (mapCase_cases c).imp_right ?_
    rintro ⟨hpoint, ns, hns, heq⟩
    exact ⟨List.mem_append_left _ hpoint, ns, List.mem_append_left _ hns, heq⟩
  next =>
    refine (mapCase_cases c).imp_right ?_
    rintro ⟨hpoint, ns, hns, heq⟩
    exact ⟨List.mem_append_right _ hpoint, ns, List.mem_append_right _ hns, heq⟩

theorem upper_ne_nil (c : Char) : upper c ≠ [] := by
  obtain h | ⟨-, ns, hns, h⟩ := upper_cases c
  · simp [h]
  · have hseq : ∀ entry ∈ upperSequences, entry.2 ≠ [] := by decide +kernel
    have hne : ns ≠ [] := by
      obtain hns | hns := List.mem_append.1 hns
      · exact ne_nil_of_mem_caseImages (by simp) hns
      · exact ne_nil_of_mem_caseImages hseq hns
    simpa [h] using hne

/-- The images hold no separator and nothing that upper case moves. The number 0 is among them for the numbers
that stand for no character. -/
theorem upperImages_disjoint : (0 :: upperImages.flatten).Disjoint ('_'.toNat :: '-'.toNat :: upperPoints) :=
  -- some three thousand code points: they cannot be compared pair by pair
  disjoint_of_mask (by decide +kernel)

theorem toNat_ofNat_mem {ns : List Nat} {n : Nat} (h : n ∈ ns) : (Char.ofNat n).toNat ∈ 0 :: ns := by
  by_cases hn : n.isValidChar
  · have hchar : Char.ofNat n = Char.ofNatAux n hn := dif_pos hn
    rw [hchar]
    exact List.mem_cons_of_mem 0 h
  · have hchar : Char.ofNat n = ⟨0, by decide⟩ := dif_neg hn
    rw [hchar]
    exact List.mem_cons_self

theorem mem_upper {c d : Char} (h : d ∈ upper c) :
    d = c ∧ upper c = [c] ∨ d ≠ '_' ∧ d ≠ '-' ∧ d.toNat ∉ upperPoints := by
  obtain hc | ⟨-, ns, hns, hc⟩ := upper_cases c
  · rw [hc, List.mem_singleton] at h
    exact .inl ⟨h, hc⟩
  · rw [hc] at h
    obtain ⟨n, hn, rfl⟩ := List.mem_map.1 h
    have himage := toNat_ofNat_mem (List.mem_flatten_of_mem hns hn)
    have hfree := List.disjoint_left.1 upperImages_disjoint himage
    rw [List.mem_cons, List.mem_cons, not_or, not_or] at hfree
    exact .inr ⟨fun h => hfree.1 (by rw [h]), fun h => hfree.2.1 (by rw [h]), hfree.2.2⟩

theorem upper_of_mem_upper {c d : Char} (h : d ∈ upper c) : upper d = [d] := by
  obtain ⟨rfl, hd⟩ | ⟨-, -, hd⟩ := mem_upper h
  · exact hd
  · obtain hd' | ⟨hpoint, -⟩ := upper_cases d
    · exact hd'
    · exact absurd hpoint hd

theorem upper_separator {c : Char} (h : isSeparator c = true) : upper c = [c] := by
  simp only [isSeparator, Bool.or_eq_true, beq_iff_eq] at h
  obtain rfl | rfl := h
  · decide
  · decide

theorem separator_mem_upper {c d : Char} (hd : isSeparator d = true) : d ∈ upper c ↔ d = c := by
  constructor
  · intro h
    obtain ⟨rfl, -⟩ | ⟨hunderscore, hhyphen, -⟩ := mem_upper h
    · rfl
    · simp [isSeparator, hunderscore, hhyphen] at hd
  · rintro rfl
    rw [upper_separator hd]
    exact List.mem_singleton_self d

end Upper

section Words

variable {s : List Char}

def Capitalized (s : List Char) : Prop := ∀ c ∈ s.head?, upper c = [c]

theorem upperFirst_eq_self (h : Capitalized s) : upperFirst s = s := by
  cases s with
  | nil => rfl
  | cons c s => rw [upperFirst, h c rfl, List.singleton_append]

theorem capitalized_upperFirst (s : List Char) : Capitalized (upperFirst s) := by
  cases s with
  | nil => simp [Capitalized, upperFirst]
  | cons c s =>
    intro d hd
    -- were a mapping empty, the text would begin with a character that was never mapped
    rw [upperFirst, List.head?_append_of_ne_nil _ (upper_ne_nil c)] at hd
    exact upper_of_mem_upper (List.mem_of_mem_head? hd)

theorem capitalized_flatten {words : List (List Char)} (h : ∀ w ∈ words, Capitalized w) :
    Capitalized words.flatten := by
  induction words with
  | nil => simp [Capitalized]
  | cons w words ih =>
    rw [List.forall_mem_cons] at h
    cases w with
    -- an empty word leaves the beginning to those behind it
    | nil => exact ih h.2
    | cons c w => exact h.1

theorem separator_mem_upperFirst {c : Char} (hc : isSeparator c = true) : c ∈ upperFirst s ↔ c ∈ s := by
  cases s with
  | nil => rfl
  | cons d s => rw [upperFirst, List.mem_append, List.mem_cons, separator_mem_upper hc]

theorem pascalChars_append {x : Char} (hx : isSeparator x = true) (s t : List Char) :
    pascalChars (s ++ x :: t) = pascalChars s ++ pascalChars t := by
  rw [pascalChars, List.splitOnP_append_cons _ _ hx, List.map_append, List.flatten_append]
  rfl

theorem pascalChars_of_word (h : ∀ c ∈ s, isSeparator c = false) : pascalChars s = upperFirst s := by
  rw [pascalChars, List.splitOnP_eq_singleton h, List.map_singleton, List.flatten_singleton]

theorem pascalChars_free (s : List Char) : ∀ c ∈ pascalChars s, isSeparator c = false := by
  intro c hc
  obtain ⟨word, hword, hc⟩ := List.mem_flatten.1 hc
  obtain ⟨w, hw, rfl⟩ := List.mem_map.1 hword
  refine eq_false_of_ne_true fun hsep => ?_
  have hfree := (mem_splitOnP hw).1 c ((separator_mem_upperFirst hsep).1 hc)
  rw [hfree] at hsep
  cases hsep

theorem capitalized_pascalChars (s : List Char) : Capitalized (pascalChars s) := by
  apply capitalized_flatten
  intro word hword
  obtain ⟨w, -, rfl⟩ := List.mem_map.1 hword
  exact capitalized_upperFirst w

theorem pascalChars_pascalChars (s : List Char) : pascalChars (pascalChars s) = pascalChars s := by
  -- what comes out is one word, and it begins in upper case
  rw [pascalChars_of_word (pascalChars_free s), upperFirst_eq_self (capitalized_pascalChars s)]

theorem pascalChars_eq_upperFirst_iff (s : List Char) :
    pascalChars s = upperFirst s ↔ ∀ c ∈ s, isSeparator c = false := by
  refine ⟨fun h c hc => eq_false_of_ne_true fun hsep => ?_, pascalChars_of_word⟩
  have hmem : c ∈ pascalChars s := h ▸ (separator_mem_upperFirst hsep).2 hc
  rw [pascalChars_free s c hmem] at hsep
  cases hsep

end Words

theorem separator_free_iff (s : List Char) : (∀ c ∈ s, isSeparator c = false) ↔ '_' ∉ s ∧ '-' ∉ s := by
  constructor
  · intro h
    exact ⟨fun hc => absurd (h _ hc) (by decide), fun hc => absurd (h _ hc) (by decide)⟩
  · rintro ⟨hunderscore, hhyphen⟩ c hc
    have hne : c ≠ '_' ∧ c ≠ '-' := ⟨fun h => hunderscore (h ▸ hc), fun h => hhyphen (h ▸ hc)⟩
    simp [isSeparator, hne]

theorem pascal_append {x : Char} (hx : isSeparator x = true) {sep : String} (hsep : sep.toList = [x]) (s t : String) :
    pascal (s ++ sep ++ t) = pascal s ++ pascal t := by
  have hchars : (s ++ sep ++ t).toList = s.toList ++ x :: t.toList := by simp [String.toList_append, hsep]
  rw [pascal, hchars, pascalChars_append hx, String.ofList_append]
  rfl

/-- Pascal case turns a separator into concatenation, leaves none, and is settled after one step; and it does no
more than capitalize exactly where there is one word. -/
theorem pascal_joins_and_settles (s t : String) :
    pascal (s ++ "_" ++ t) = pascal s ++ pascal t ∧ pascal (s ++ "-" ++ t) = pascal s ++ pascal t ∧
      ('_' ∉ (pascal s).toList ∧ '-' ∉ (pascal s).toList) ∧ pascal (pascal s) = pascal s ∧
      (pascal s = capitalize s ↔ '_' ∉ s.toList ∧ '-' ∉ s.toList) := by
  refine ⟨pascal_append (x := '_') rfl rfl s t, pascal_append (x := '-') rfl rfl s t, ?_, ?_, ?_⟩
  · rw [← separator_free_iff, pascal, String.toList_ofList]
    exact pascalChars_free s.toList
  · rw [pascal, pascal, String.toList_ofList, pascalChars_pascalChars]
  · rw [← separator_free_iff, ← pascalChars_eq_upperFirst_iff, pascal, capitalize, String.ofList_inj]

example : pascal "-straße__ßuper-ŉame" = "StraßeSSuperʼName" := by decide +kernel

end Stencil.Text
