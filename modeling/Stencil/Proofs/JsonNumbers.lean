import Stencil.Json.Number
import Mathlib.Data.List.TakeWhile

/-! Natural numbers in decimal: each is a number of the grammar with itself as its value, and those of 32 bits are in
the range of doubles. -/
namespace Stencil.Json.Number

theorem head?_toDigits {n : Nat} (h : n ≠ 0) : (Nat.toDigits 10 n).head? ≠ some '0' := by
  induction n using Nat.strong_induction_on with
  | _ n ih =>
    rw [Nat.toDigits_eq_if (by decide)]
    by_cases hn : n < 10
    · rw [if_pos hn]
      simp [Nat.digitChar_eq_zero, h]
    · have hne : Nat.toDigits 10 (n / 10) ≠ [] := Nat.toDigits_ne_nil
      rw [if_neg hn, List.head?_append]
      cases hhead : (Nat.toDigits 10 (n / 10)).head? with
      | none => exact absurd (List.head?_eq_none_iff.1 hhead) hne
      | some d =>
        have hd := ih (n / 10) (by omega) (by omega)
        rwa [hhead] at hd

theorem isDigit_toDigits (n : Nat) : ∀ c ∈ Nat.toDigits 10 n, c.isDigit = true :=
  fun _ hc => Nat.isDigit_of_mem_toDigits (by decide) (by decide) hc

theorem isWhole_toDigits (n : Nat) : isWhole (Nat.toDigits 10 n) = true := by
  by_cases h : n = 0
  · rw [h]
    decide
  · simp [isWhole, Nat.toDigits_ne_nil, head?_toDigits h]

theorem parts?_toDigits (n : Nat) :
    parts? (Nat.toDigits 10 n) = some ⟨false, Nat.toDigits 10 n, [], false, []⟩ := by
  have hsign : sign (Nat.toDigits 10 n) = (false, Nat.toDigits 10 n) := by
    unfold sign
    split
    · next s hs =>
      have hminus := isDigit_toDigits n '-' (hs ▸ List.mem_cons_self)
      cases hminus
    · rfl
  have hdigits : digits (Nat.toDigits 10 n) = Nat.toDigits 10 n :=
    List.takeWhile_eq_self_iff.2 (isDigit_toDigits n)
  have hrest : afterDigits (Nat.toDigits 10 n) = [] := List.dropWhile_eq_nil_iff.2 (isDigit_toDigits n)
  simp [parts?, hsign, hdigits, hrest, isWhole_toDigits, fraction?, exponent?]

theorem isNumber_toDigits (n : Nat) : isNumber (Nat.toDigits 10 n) = true := by
  rw [isNumber, parts?_toDigits]
  rfl

theorem valueFrom_toDigits (n : Nat) : valueFrom 0 (Nat.toDigits 10 n) = n := by
  have h := Nat.ofDigitChars_ten_toDigits (n := n)
  rw [Nat.ofDigitChars_eq_foldl] at h
  simpa [valueFrom, Nat.mul_comm] using h

theorem natural?_toString {n : Nat} (h : n < UInt64.size) : natural? (toString n) = some n := by
  have hall : (Nat.toDigits 10 n).all Char.isDigit = true := List.all_eq_true.2 (isDigit_toDigits n)
  simp [natural?, valueFrom_toDigits, hall, h, Nat.toDigits_ne_nil]

theorem le_valueFrom (n : Nat) (ds : List Char) : n ≤ valueFrom n ds := by
  induction ds generalizing n with
  | nil => exact le_refl n
  | cons d ds ih =>
    have hstep : n ≤ valueFrom n [d] := by
      simp only [valueFrom, List.foldl_cons, List.foldl_nil]
      omega
    exact le_trans hstep (ih _)

theorem fill_eq {n : Nat} {ds : List Char} (h : valueFrom n ds < UInt64.size) :
    fill n ds = (valueFrom n ds, 0) := by
  induction ds generalizing n with
  | nil => rfl
  | cons d ds ih =>
    have hfirst : valueFrom n [d] < UInt64.size := lt_of_le_of_lt (le_valueFrom _ ds) h
    rw [fill, if_pos hfirst]
    exact ih h

theorem round53_of_lt {n : Nat} (h : n < Nat.pow 2 53) : round53 n = n := if_pos h

theorem isHuge_toString {n : Nat} (h : n < UInt32.size) : isHuge (toString n) = false := by
  have hn : n < Nat.pow 2 53 := lt_trans h (by decide)
  have hfill : fill 0 (Nat.toDigits 10 n) = (n, 0) := by
    have hlt : valueFrom 0 (Nat.toDigits 10 n) < UInt64.size := by
      rw [valueFrom_toDigits]
      exact lt_trans h (by decide)
    rw [fill_eq hlt, valueFrom_toDigits]
  have hscale : (if false = true then -((0 : Nat) : Int) else ((0 : Nat) : Int)) + (0 : Nat) -
      ((([] : List Char).length - 0 : Nat) : Int) = 0 := rfl
  have hround : round53 (round53 n * round53 (Nat.pow 10 (0 : Int).toNat)) = n := by
    have hone : round53 (Nat.pow 10 (0 : Int).toNat) = 1 := rfl
    rw [round53_of_lt hn, hone, Nat.mul_one, round53_of_lt hn]
  have hsmall (j : Nat) (hj : 53 ≤ j) : ¬Nat.pow 2 j ≤ n :=
    Nat.not_le.2 (lt_of_lt_of_le hn (Nat.pow_le_pow_right (by decide) hj))
  rw [isHuge, Nat.toString_eq_ofList_toDigits, String.toList_ofList, parts?_toDigits]
  simp only [Option.any_some, Parts.isHuge, hfill, fill, valueFrom, List.foldl_nil, hscale, hround]
  refine decide_eq_false ?_
  intro ⟨_, _, hlarge⟩
  obtain hlarge | hlarge := hlarge
  · have h308 : ¬(308 : Int) < 0 := by decide
    exact h308 hlarge
  · generalize hj : 1024 = j at hlarge
    exact hsmall j (by omega) hlarge

end Stencil.Json.Number
