import Stencil.Json.Reader
import Stencil.Proofs.JsonScanning
import Stencil.Proofs.TextPieces

/-! Reading what was written. Main statement: a value whose numbers are naturals and whose strings have a text is
read back from the text that is written for it. -/
namespace Stencil.Json

/-- Numbers are naturals of 32 bits, and strings and keys have a text. -/
inductive Plain : Json → Prop
  | null : Plain .null
  | bool (b : Bool) : Plain (.bool b)
  | natural {n : Nat} (h : n < UInt32.size) : Plain (.natural n)
  | text (s : String) : Plain (.text s)
  | array {items : List Json} (h : ∀ v ∈ items, Plain v) : Plain (.array items)
  | record {members : List (String × Json)} (h : ∀ m ∈ members, Plain m.2) : Plain (.record members)

def Spells (ts : List Token) (v : Json) : Prop :=
  ∀ stack, ts.foldlM Progress.step (.value stack) = some (.complete v stack)

def Denotes (s : List Char) (v : Json) : Prop := ∃ ts, ReadAs s ts ∧ Spells ts v

def DenotesMember (s : List Char) (m : Option String × Json) : Prop :=
  ∃ k ts, ReadAs s (.string k :: ts) ∧ ∀ members stack,
    ts.foldlM Progress.step (.colon members k stack) = some (.complete m.2 (.object members m.1 :: stack))

theorem Denotes.ofChars? {s : List Char} {v : Json} (h : Denotes s v) : ofChars? s = some v := by
  obtain ⟨ts, hread, hspell⟩ := h
  have htokens : tokens? s = some ts := by
    have hend := hread [] trivial
    rwa [List.append_nil, show Scan.between.run [] = some [] from rfl, Option.map_some, List.append_nil,
      ← Scan.tokens?_eq_run] at hend
  simp [Json.ofChars?, htokens, ofTokens?, hspell []]

theorem Spells.foldlM_firstItem {ts : List Token} {v : Json} (h : Spells ts v) (stack : List Frame) :
    ts.foldlM Progress.step (.firstItem stack) = some (.complete v (.array [] :: stack)) := by
  have hvalue := h (.array [] :: stack)
  cases ts with
  | nil => cases hvalue
  | cons t ts =>
    by_cases ht : t = .closeArray
    · rw [ht] at hvalue
      cases hvalue
    · rw [List.foldlM_cons, Progress.step]
      · exact hvalue
      · exact ht

open Scan

def continued (parts : List (List Char)) (bracket : Char) : List Char :=
  parts.flatMap (',' :: ·) ++ [bracket]

theorem continued_cons (s : List Char) (parts : List (List Char)) (bracket : Char) :
    continued (s :: parts) bracket = [','] ++ (s ++ continued parts bracket) := by
  simp [continued]

theorem ReadAs.append_continued {s : List Char} {us ts : List Token} {parts : List (List Char)} {bracket : Char}
    (hbracket : bracket = ']' ∨ bracket = '\x7d') (h : ReadAs s us)
    (h' : Yields .between (continued parts bracket) ts .between) :
    Yields .between (s ++ continued parts bracket) (us ++ ts) .between := by
  intro rest
  have hrest : Delimited (continued parts bracket ++ rest) := by
    cases parts with
    | nil => exact .inr hbracket
    | cons r parts => exact .inl rfl
  rw [List.append_assoc, h _ hrest, h', Option.map_map]
  simp [Function.comp_def]

theorem exists_items {vs : List Json} (h : ∀ v ∈ vs, Denotes v.render.toList v) :
    ∃ ts, Yields .between (continued (vs.map fun v => v.render.toList) ']') ts .between ∧
      ∀ v items stack, ts.foldlM Progress.step (.complete v (.array items :: stack)) =
        some (.complete (.array (items.reverse ++ v :: vs)) stack) := by
  induction vs with
  | nil => exact ⟨[.closeArray], .of_step rfl, fun v items stack => by simp [Progress.step]⟩
  | cons w vs ih =>
    obtain ⟨us, hread, hspell⟩ := h w List.mem_cons_self
    obtain ⟨ts, hyields, hitems⟩ := ih fun v hv => h v (List.mem_cons_of_mem w hv)
    refine ⟨[.comma] ++ (us ++ ts), ?_, fun v items stack => ?_⟩
    · rw [List.map_cons, continued_cons]
      exact Yields.append (.of_step rfl) (hread.append_continued (.inl rfl) hyields)
    · have hcomma : Progress.step (.complete v (.array items :: stack)) .comma =
          some (.value (.array (v :: items) :: stack)) := rfl
      simp [hcomma, hspell (.array (v :: items) :: stack), hitems]

theorem exists_members {ms : List (Option String × Json)} (h : ∀ m ∈ ms, DenotesMember (renderMember m).toList m) :
    ∃ ts, Yields .between (continued (ms.map fun m => (renderMember m).toList) '\x7d') ts .between ∧
      ∀ v k members stack, ts.foldlM Progress.step (.complete v (.object members k :: stack)) =
        some (.complete (.object (members.reverse ++ (k, v) :: ms)) stack) := by
  induction ms with
  | nil => exact ⟨[.closeObject], .of_step rfl, fun v k members stack => by simp [Progress.step]⟩
  | cons m ms ih =>
    obtain ⟨key, us, hread, hspell⟩ := h m List.mem_cons_self
    obtain ⟨ts, hyields, hmembers⟩ := ih fun m' hm => h m' (List.mem_cons_of_mem m hm)
    refine ⟨[.comma] ++ (.string key :: us ++ ts), ?_, fun v k members stack => ?_⟩
    · rw [List.map_cons, continued_cons]
      exact Yields.append (.of_step rfl) (hread.append_continued (.inr rfl) hyields)
    · have hcomma : Progress.step (.complete v (.object members k :: stack)) .comma =
          some (.key ((k, v) :: members) stack) := rfl
      have hkey : Progress.step (.key ((k, v) :: members) stack) (.string key) =
          some (.colon ((k, v) :: members) key stack) := rfl
      simp [hcomma, hkey, hspell, hmembers]

theorem renderItems_eq (vs : List Json) : renderItems vs = vs.map render := by
  induction vs with
  | nil => rfl
  | cons v vs ih => rw [renderItems, ih, List.map_cons]

theorem renderMembers_eq (ms : List (Option String × Json)) : renderMembers ms = ms.map renderMember := by
  induction ms with
  | nil => rfl
  | cons m ms ih => rw [renderMembers, ih, List.map_cons]

theorem denotes_array {items : List Json} (h : ∀ v ∈ items, Denotes v.render.toList v) :
    Denotes (Json.array items).render.toList (.array items) := by
  rw [render, renderItems_eq]
  cases items with
  | nil =>
    have hread : Yields .between (['['] ++ [']']) ([.openArray] ++ [.closeArray]) .between :=
      .append (.of_step rfl) (.of_step rfl)
    exact ⟨_, hread.readAs, fun stack => rfl⟩
  | cons v vs =>
    obtain ⟨us, hread, hspell⟩ := h v List.mem_cons_self
    obtain ⟨ts, hyields, hitems⟩ := exists_items fun w hw => h w (List.mem_cons_of_mem v hw)
    refine ⟨[.openArray] ++ (us ++ ts), ?_, fun stack => ?_⟩
    · have htext : ("[" ++ ",".intercalate ((v :: vs).map render) ++ "]").toList =
          ['['] ++ (v.render.toList ++ continued (vs.map fun w => w.render.toList) ']') := by
        simp [String.toList_intercalate, Text.intercalate_cons_eq, continued, Function.comp_def]
      rw [htext]
      exact (Yields.append (.of_step rfl) (hread.append_continued (.inl rfl) hyields)).readAs
    · have hopen : Progress.step (.value stack) .openArray = some (.firstItem stack) := rfl
      simp [hopen, hspell.foldlM_firstItem, hitems]

theorem denotes_object {ms : List (Option String × Json)} (h : ∀ m ∈ ms, DenotesMember (renderMember m).toList m) :
    Denotes (Json.object ms).render.toList (.object ms) := by
  rw [render, renderMembers_eq]
  cases ms with
  | nil =>
    have hread : Yields .between (['\x7b'] ++ ['\x7d']) ([.openObject] ++ [.closeObject]) .between :=
      .append (.of_step rfl) (.of_step rfl)
    exact ⟨_, hread.readAs, fun stack => rfl⟩
  | cons m ms =>
    obtain ⟨key, us, hread, hspell⟩ := h m List.mem_cons_self
    obtain ⟨ts, hyields, hmembers⟩ := exists_members fun m' hm => h m' (List.mem_cons_of_mem m hm)
    refine ⟨[.openObject] ++ (.string key :: us ++ ts), ?_, fun stack => ?_⟩
    · have htext : ("\x7b" ++ ",".intercalate ((m :: ms).map renderMember) ++ "\x7d").toList =
          ['\x7b'] ++ ((renderMember m).toList ++ continued (ms.map fun m => (renderMember m).toList) '\x7d') := by
        simp [String.toList_intercalate, Text.intercalate_cons_eq, continued, Function.comp_def]
      rw [htext]
      exact (Yields.append (.of_step rfl) (hread.append_continued (.inr rfl) hyields)).readAs
    · have hopen : Progress.step (.value stack) .openObject = some (.firstKey stack) := rfl
      have hkey : Progress.step (.firstKey stack) (.string key) = some (.colon [] key stack) := rfl
      simp [hopen, hkey, hspell, hmembers]

theorem denotesMember {key : String} {v : Json} (h : Denotes v.render.toList v) :
    DenotesMember (renderMember (some key, v)).toList (some key, v) := by
  obtain ⟨ts, hread, hspell⟩ := h
  refine ⟨some key, .colon :: ts, ?_, fun members stack => ?_⟩
  · have htext : (renderMember (some key, v)).toList = quoteChars key.toList ++ ([':'] ++ v.render.toList) := by
      simp [renderMember, quote]
    have hkey : Yields .between (quoteChars key.toList) [.string (some key)] .between := by
      simpa using yields_quoteChars key.toList
    have hcolon : Yields .between [':'] [.colon] .between := .of_step rfl
    rw [htext]
    exact hkey.append_readAs (hcolon.append_readAs hread)
  · have hcolon : Progress.step (.colon members (some key) stack) .colon =
        some (.value (.object members (some key) :: stack)) := rfl
    simp [hcolon, hspell (.object members (some key) :: stack)]

theorem Plain.denotes {v : Json} (h : Plain v) : Denotes v.render.toList v := by
  induction h with
  | null => exact ⟨[.null], readAs_word rfl rfl rfl, fun stack => rfl⟩
  | bool b =>
    cases b with
    | false => exact ⟨[.bool false], readAs_word rfl rfl rfl, fun stack => rfl⟩
    | true => exact ⟨[.bool true], readAs_word rfl rfl rfl, fun stack => rfl⟩
  | @natural n h =>
    refine ⟨[.number (toString n)], ?_, fun stack => rfl⟩
    have htext : (Json.natural n).render.toList = Nat.toDigits 10 n := by simp [Json.natural, render]
    rw [htext]
    exact readAs_digits n
  | text s =>
    refine ⟨[.string (some s)], ?_, fun stack => rfl⟩
    have htext : (Json.text s).render.toList = quoteChars s.toList := by simp [Json.text, render, quote]
    have hquote := (yields_quoteChars s.toList).readAs
    rwa [String.ofList_toList, ← htext] at hquote
  | array h ih => exact denotes_array ih
  | record h ih =>
    refine denotes_object fun m hm => ?_
    obtain ⟨m, hmem, rfl⟩ := List.mem_map.1 hm
    exact denotesMember (ih m hmem)

theorem parse?_render {v : Json} (h : Plain v) : parse? v.render = some v := h.denotes.ofChars?

end Stencil.Json
