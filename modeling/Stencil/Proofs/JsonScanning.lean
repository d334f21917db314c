import Stencil.Json.Printer
import Stencil.Json.Token
import Stencil.Proofs.JsonNumbers

/-! How the scanner reads what the printer writes: strings with their escapes, words, and natural numbers. Words
and numbers end where the next token begins, so for them it matters what follows. -/
namespace Stencil.Json

namespace Scan

def run : Scan → List Char → Option (List Token)
  | scan, [] => scan.finish
  | scan, c :: s => scan.step c >>= fun done => (run done.2 s).map (done.1 ++ ·)

/-- From one state to another over a text, with the tokens read on the way. -/
def Yields (scan : Scan) (s : List Char) (ts : List Token) (next : Scan) : Prop :=
  ∀ rest, scan.run (s ++ rest) = (next.run rest).map (ts ++ ·)

theorem foldlM_feed (s : List Char) (read : List Token) (scan : Scan) :
    (s.foldlM feed (read, scan) >>= fun state => state.2.finish.map (state.1.reverse ++ ·)) =
      (scan.run s).map (read.reverse ++ ·) := by
  induction s generalizing read scan with
  | nil => rfl
  | cons c s ih =>
    rw [List.foldlM_cons, run, feed]
    cases hstep : scan.step c with
    | none => rfl
    | some done =>
      have h := ih (done.1.reverse ++ read) done.2
      simp only [List.reverse_append, List.reverse_reverse, List.append_assoc] at h
      simpa [Function.comp_def] using h

theorem tokens?_eq_run (s : List Char) : tokens? s = between.run s := by
  have h := foldlM_feed s [] .between
  simp only [List.reverse_nil, List.nil_append, Option.map_id'] at h
  rw [← h, tokens?]
  cases s.foldlM feed ([], between) with
  | none => rfl
  | some state => cases hfinish : state.2.finish <;> simp [hfinish]

namespace Yields

variable {a b c : Scan} {s t : List Char} {us ts : List Token}

theorem nil (a : Scan) : Yields a [] [] a := by
  intro rest
  simp

theorem of_step {x : Char} (h : a.step x = some (ts, b)) : Yields a [x] ts b := by
  intro rest
  simp [run, h]

theorem append (h : Yields a s us b) (h' : Yields b t ts c) : Yields a (s ++ t) (us ++ ts) c := by
  intro rest
  rw [List.append_assoc, h, h', Option.map_map]
  simp [Function.comp_def]

theorem skip {x : Char} (h : a.step x = some ([], b)) (h' : Yields b t ts c) : Yields a (x :: t) ts c :=
  (of_step h).append h'

end Yields

end Scan

def codes (s : List Char) : List Nat := (s.map Char.toNat).reverse

theorem not_surrogate (c : Char) : isHighSurrogate c.toNat = false ∧ isLowSurrogate c.toNat = false := by
  have h : c.toNat < 0xD800 ∨ 0xDFFF < c.toNat := by
    have hvalid : c.toNat.isValidChar := c.valid
    simp only [Nat.isValidChar] at hvalid
    omega
  simp only [isHighSurrogate, isLowSurrogate]
  constructor <;> simp <;> omega

theorem addUnit_codes (c : Char) (units : List Nat) : addUnit c.toNat units = c.toNat :: units := by
  cases units with
  | nil => rfl
  | cons m units => simp [addUnit, not_surrogate c]

theorem unitsText?_codes (s : List Char) : unitsText? (codes s) = some (String.ofList s) := by
  simp [unitsText?, codes, Function.comp_def, Char.ofNat_toNat, not_surrogate]

theorem hexDigit?_hexChar {d : Nat} (h : d < 16) : hexDigit? (hexChar d) = some d := by
  revert d
  decide

open Scan

theorem yields_backslash {x : Char} {n : Nat} (hx : x ≠ 'u') (h : escaped? x = some n) (units : List Nat) :
    Yields (.string units) ['\\', x] [] (.string (addUnit n units)) := by
  have hstep : (Scan.escape units).step x = some ([], .string (addUnit n units)) := by simp [step, hx, h]
  exact .skip rfl (.of_step hstep)

theorem yields_hex {n : Nat} (h : n < 0x20) (units : List Nat) :
    Yields (.string units) ['\\', 'u', '0', '0', hexChar (n / 16), hexChar (n % 16)] []
      (.string (addUnit n units)) := by
  have hhigh : (Scan.hex units 2 0).step (hexChar (n / 16)) = some ([], .hex units 3 (n / 16)) := by
    simp [step, hexDigit?_hexChar (show n / 16 < 16 by omega)]
  have hlow : (Scan.hex units 3 (n / 16)).step (hexChar (n % 16)) = some ([], .string (addUnit n units)) := by
    have hn : n / 16 * 16 + n % 16 = n := by omega
    simp [step, hexDigit?_hexChar (show n % 16 < 16 by omega), hn]
  exact .skip rfl (.skip rfl (.skip rfl (.skip rfl (.skip hhigh (.of_step hlow)))))

theorem yields_escape (c : Char) (units : List Nat) :
    Yields (.string units) (escape c) [] (.string (c.toNat :: units)) := by
  rw [← addUnit_codes]
  unfold escape
  split
  case h_8 hquote hslash _ _ _ _ _ =>
    by_cases hc : c.toNat < 0x20
    · rw [if_pos hc]
      exact yields_hex hc units
    · rw [if_neg hc]
      exact .of_step (by rw [step, if_neg hquote, if_neg hslash, if_neg hc])
  -- the other cases are the characters with a short escape
  all_goals exact yields_backslash (by decide) rfl units

theorem yields_escapes (s t : List Char) :
    Yields (.string (codes t)) (s.flatMap escape) [] (.string (codes (t ++ s))) := by
  induction s generalizing t with
  | nil => simpa using Yields.nil (.string (codes t))
  | cons c s ih =>
    have hrest := ih (t ++ [c])
    rw [List.append_assoc, List.singleton_append] at hrest
    rw [List.flatMap_cons]
    refine (yields_escape c (codes t)).append ?_
    simpa [codes] using hrest

theorem yields_quoteChars (s : List Char) :
    Yields .between (quoteChars s) [.string (some (.ofList s))] .between := by
  have hclose : (Scan.string (codes s)).step '"' = some ([.string (some (.ofList s))], .between) := by
    simp [step, unitsText?_codes]
  exact .skip rfl ((yields_escapes s []).append (.of_step hclose))

def Delimits (c : Char) : Prop := c = ',' ∨ c = ']' ∨ c = '\x7d'

def Delimited : List Char → Prop
  | [] => True
  | c :: _ => Delimits c

/-- The text is read as these tokens wherever it can end. -/
def ReadAs (s : List Char) (ts : List Token) : Prop :=
  ∀ rest, Delimited rest → between.run (s ++ rest) = (between.run rest).map (ts ++ ·)

theorem Scan.Yields.readAs {s : List Char} {ts : List Token} (h : Yields .between s ts .between) : ReadAs s ts :=
  fun rest _ => h rest

theorem Scan.Yields.append_readAs {s t : List Char} {us ts : List Token} (h : Yields .between s us .between)
    (h' : ReadAs t ts) : ReadAs (s ++ t) (us ++ ts) := by
  intro rest hrest
  rw [List.append_assoc, h, h' rest hrest, Option.map_map]
  simp [Function.comp_def]

theorem yields_gather {gather : List Char → Scan} {s : List Char}
    (hstep : ∀ x ∈ s, ∀ read, (gather read).step x = some ([], gather (x :: read))) (read : List Char) :
    Yields (gather read) s [] (gather (s.reverse ++ read)) := by
  induction s generalizing read with
  | nil => exact .nil _
  | cons x s ih =>
    have hrest := ih (fun y hy => hstep y (List.mem_cons_of_mem x hy)) (x :: read)
    rw [List.reverse_cons, List.append_assoc, List.singleton_append]
    exact .skip (hstep x List.mem_cons_self read) hrest

theorem readAs_gathered {gather : List Char → Scan} {c : Char} {s : List Char} {token : Token}
    (hstart : start c = some ([], gather [c]))
    (hstep : ∀ x ∈ s, ∀ read, (gather read).step x = some ([], gather (x :: read)))
    (hend : ∀ x, Delimits x → ∀ read, (gather read).step x =
      (gather read).finish >>= fun done => (start x).map fun next => (done ++ next.1, next.2))
    (hfinish : (gather (c :: s).reverse).finish = some [token]) : ReadAs (c :: s) [token] := by
  have hread : Yields .between (c :: s) [] (gather (c :: s).reverse) := by
    rw [List.reverse_cons]
    exact .skip hstart (yields_gather hstep [c])
  intro rest hrest
  rw [hread rest]
  cases rest with
  | nil =>
    rw [run, hfinish]
    rfl
  | cons x rest =>
    have hx := hend x hrest (c :: s).reverse
    rw [hfinish] at hx
    rw [run, hx, run, show between.step x = start x from rfl]
    cases hnext : start x <;> simp [Function.comp_def]

theorem readAs_word {c : Char} {s : List Char} {token : Token} (hstart : start c = some ([], .word [c]))
    (hletters : s.all Char.isAlpha = true) (hword : word? (c :: s) = some token) : ReadAs (c :: s) [token] := by
  refine readAs_gathered hstart ?_ ?_ ?_
  · intro x hx read
    rw [step, if_pos (List.all_eq_true.1 hletters x hx)]
  · intro x hx read
    have halpha : x.isAlpha = false := by
      obtain rfl | rfl | rfl := hx <;> rfl
    rw [step, if_neg (by simp [halpha])]
    cases (Scan.word read).finish with
    | none => rfl
    | some done => cases start x <;> rfl
  · rw [finish, List.reverse_reverse, hword, Option.map_some]

theorem start_digit {c : Char} (h : c.isDigit = true) : start c = some ([], .number [c]) := by
  have hspace : isSpace c = false := by
    cases hs : isSpace c with
    | false => rfl
    | true =>
      simp only [isSpace, Bool.or_eq_true, beq_iff_eq] at hs
      obtain ((rfl | rfl) | rfl) | rfl := hs <;> cases h
  unfold start
  rw [if_neg (by simp [hspace])]
  split <;> simp_all

theorem readAs_digits (n : Nat) : ReadAs (Nat.toDigits 10 n) [.number (toString n)] := by
  have hdigits := Number.isDigit_toDigits n
  have hnumber := Number.isNumber_toDigits n
  rw [Nat.toString_eq_ofList_toDigits]
  generalize Nat.toDigits 10 n = s at hdigits hnumber
  cases s with
  | nil => cases hnumber
  | cons c s =>
    refine readAs_gathered (start_digit (hdigits c List.mem_cons_self)) ?_ ?_ ?_
    · intro x hx read
      have hx : isNumberChar x = true := by simp [isNumberChar, hdigits x (List.mem_cons_of_mem c hx)]
      rw [step, if_pos hx]
    · intro x hx read
      have hother : isNumberChar x = false := by
        obtain rfl | rfl | rfl := hx <;> rfl
      rw [step, if_neg (by simp [hother])]
      cases (Scan.number read).finish with
      | none => rfl
      | some done => cases start x <;> rfl
    · rw [finish, List.reverse_reverse, if_pos hnumber]

end Stencil.Json
