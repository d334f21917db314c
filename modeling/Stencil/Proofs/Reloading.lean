import Stencil.Proofs.DeclarationFormat
import Stencil.Proofs.LoadedTables

/-! Writing and reading again. What was read has bodies of finished lines, and what was linked is linked to itself.
Main statement: declarations are read back from their text, and a loaded table is loaded again from the text of its
declarations. -/
namespace Stencil

open Json

namespace Json

variable {α : Type}

theorem exists_of_mem_mapM {β : Type} {f : β → Option α} {vs : List β} {xs : List α} (h : vs.mapM f = some xs)
    {x : α} (hx : x ∈ xs) : ∃ v, f v = some x := by
  induction vs generalizing xs with
  | nil =>
    obtain rfl : [] = xs := Option.some.inj h
    cases hx
  | cons v vs ih =>
    simp only [List.mapM_cons, Option.bind_eq_bind, Option.bind_eq_some_iff] at h
    obtain ⟨y, hy, ys, hys, hxs⟩ := h
    obtain rfl : y :: ys = xs := Option.some.inj hxs
    cases hx with
    | head => exact ⟨v, hy⟩
    | tail _ hx => exact ih hys hx

theorem exists_of_mem_items? {read : Nat → Json → Option α} {room : Nat} {v : Json} {xs : List α}
    (h : items? read room v = some xs) {x : α} (hx : x ∈ xs) : ∃ r w, read r w = some x := by
  unfold items? at h
  split at h
  · obtain ⟨w, hw⟩ := exists_of_mem_mapM h hx
    exact ⟨_, w, hw⟩
  · cases h

theorem Fields.withDefault_cases {fields : Fields} {name : String} {default x : α} {read : Json → Option α}
    (h : fields.withDefault name default read = some x) : x = default ∨ ∃ v, read v = some x := by
  unfold Fields.withDefault at h
  split at h
  · exact .inr ⟨_, h⟩
  · exact .inl (Option.some.inj h).symm

end Json

theorem Method.exists_body {room : Nat} {v : Json} {m : Method} (h : Method.ofJson? room v = some m) :
    ∃ texts, m.body = .ofTexts texts := by
  simp only [Method.ofJson?, Option.bind_eq_bind, Option.bind_eq_some_iff] at h
  obtain ⟨_, -, _, -, _, -, _, -, _, -, _, -, _, -, body, hbody, hm⟩ := h
  obtain rfl := Option.some.inj hm
  obtain rfl | ⟨w, hw⟩ := Fields.withDefault_cases hbody
  · exact ⟨[], rfl⟩
  · obtain ⟨texts, -, rfl⟩ := Option.map_eq_some_iff.1 hw
    exact ⟨texts, rfl⟩

namespace Declaration

theorem hasPlainBodies_of_ofJson? {room : Nat} {v : Json} {d : Declaration} (h : ofJson? room v = some d) :
    d.HasPlainBodies := by
  intro m hm
  simp only [ofJson?, Option.bind_eq_bind, Option.bind_eq_some_iff] at h
  obtain ⟨_, -, _, -, _, -, _, -, _, -, _, -, _, -, methods, hmethods, _, -, _, -, hd⟩ := h
  obtain rfl := Option.some.inj hd
  obtain rfl | ⟨w, hw⟩ := Fields.withDefault_cases hmethods
  · cases hm
  · obtain ⟨r, x, hx⟩ := exists_of_mem_items? hw hm
    exact Method.exists_body hx

theorem hasPlainBodies_of_parseList? {text : String} {ds : List Declaration} (h : parseList? text = some ds) :
    ∀ d ∈ ds, d.HasPlainBodies := by
  intro d hd
  obtain ⟨v, -, hv⟩ := Option.bind_eq_some_iff.1 h
  obtain ⟨r, w, hw⟩ := exists_of_mem_items? hv hd
  exact hasPlainBodies_of_ofJson? hw

theorem HasPlainBodies.mapRefs {d : Declaration} (h : d.HasPlainBodies) (f : Ref → Ref) :
    (d.mapRefs f).HasPlainBodies := by
  intro m hm
  obtain ⟨m, hmem, rfl⟩ := List.mem_map.1 hm
  exact h m hmem

end Declaration

namespace Table

theorem Resolves.builtIn_map {ds : List Declaration} {n : String} (f : Ref → Ref)
    (h : (Table.mk ds).Resolves n .builtIn) : (Table.mk (ds.map (·.mapRefs f))).Resolves n .builtIn := by
  cases h with
  | builtIn hnone hsimple =>
    refine .builtIn ?_ ?_
    · intro ⟨d, hd, hname⟩
      obtain ⟨e, he, rfl⟩ := List.mem_map.1 hd
      exact hnone ⟨e, he, hname⟩
    · intro d hd hname
      obtain ⟨e, he, rfl⟩ := List.mem_map.1 hd
      exact hsimple e he hname

theorem LinksTo.again {ds : List Declaration} {r s : Ref} (f : Ref → Ref) (h : (Table.mk ds).LinksTo r s) :
    (Table.mk (ds.map (·.mapRefs f))).LinksTo s s := by
  cases h with
  | linked hr => exact .linked hr
  | declared hr hres => exact .linked rfl
  | builtIn hr hres => exact .builtIn hr (hres.builtIn_map f)

theorem ofDeclarations_again {ds : List Declaration} {t : Table} (h : ofDeclarations ds = .ok t) :
    ofDeclarations t.declarations = .ok t := by
  have hunique := namesUnique_of_ofDeclarations h
  obtain ⟨-, f, hf, rfl⟩ := ofDeclarations_eq_ok_iff.1 h
  refine ofDeclarations_eq_ok_iff.2 ⟨hunique, id, ?_, ?_⟩
  · intro s hs
    obtain ⟨d, hd, hs⟩ := List.mem_flatMap.1 hs
    obtain ⟨e, he, rfl⟩ := List.mem_map.1 hd
    rw [Declaration.walkRefs_mapRefs] at hs
    obtain ⟨r, hr, rfl⟩ := List.mem_map.1 hs
    exact (hf r (List.mem_flatMap.2 ⟨e, he, hr⟩)).again f
  · simp [Declaration.mapRefs_mapRefs, Function.comp_def]

theorem hasPlainBodies_of_ofText {text : String} {t : Table} (h : ofText text = .ok t) :
    ∀ d ∈ t.declarations, d.HasPlainBodies := by
  intro d hd
  obtain ⟨ds, hread, hdecls⟩ := ofText_eq_ok.1 h
  obtain ⟨-, f, -, rfl⟩ := ofDeclarations_eq_ok_iff.1 hdecls
  obtain ⟨e, he, rfl⟩ := List.mem_map.1 hd
  exact (Declaration.hasPlainBodies_of_parseList? hread e he).mapRefs f

/-- Declarations are read back from the text that is written for them, if their bodies are finished lines at depth
zero and the text keeps to the limit of nesting. A table that was loaded is loaded again from the text of its
declarations, with all its names and handles. -/
theorem written_declarations_read_back :
    (∀ ds : List Declaration, (∀ d ∈ ds, d.HasPlainBodies) → (Declaration.listToJson ds).nesting ≤ maxNesting →
      Declaration.parseList? (Declaration.listToJson ds).render = some ds) ∧
    ∀ (text : String) (t : Table), ofText text = .ok t →
      (Declaration.listToJson t.declarations).nesting ≤ maxNesting →
      ofText (Declaration.listToJson t.declarations).render = .ok t := by
  constructor
  · intro ds hbodies hroom
    exact Declaration.parseList?_render hbodies hroom
  · intro text t hload hroom
    obtain ⟨ds, -, hdecls⟩ := ofText_eq_ok.1 hload
    have hread := Declaration.parseList?_render (hasPlainBodies_of_ofText hload) hroom
    exact ofText_eq_ok.2 ⟨_, hread, ofDeclarations_again hdecls⟩

def library : List Declaration := [
  { kind := .interfaceKind, package := "shop", name := "Priced"
    methods := [{ flags.isGetter := true, name := "price", result := some (.primitive .number) }] },
  { kind := .classKind (some (.named ⟨"Object", none⟩)), package := "shop", name := "Book", isFinal := true
    interfaces := [.named ⟨"Priced", some ⟨0⟩⟩]
    fields := [{ visibility := .priv, type := .vector (.named ⟨"Book", some ⟨1⟩⟩), name := "sequels"
                 initializer := some "null" }]
    methods := [{ name := "sort", params := [⟨.function (some (.primitive .int)) [.primitive .any], "order"⟩]
                  body := .ofTexts ["print(\"\\é\");", "\treturn;"] }]
    delegates := [{ name := "Visitor", params := [⟨.primitive .any, "x"⟩] }]
    extraImports := [.named ⟨"Date", none⟩] }]

def shelfText : String :=
  "[\x7b\"kind\":\"class\",\"name\":\"Shelf\",\"interfaces\":[[\"class\",\"Shelf\"],[\"class\",\"String\"]]\x7d]"

theorem shelf_loads : ∃ t, ofText shelfText = .ok t ∧ t.walkRefs = [⟨"Shelf", some ⟨0⟩⟩, ⟨"String", none⟩] ∧
    (Declaration.listToJson t.declarations).nesting ≤ maxNesting := by
  have hload : ((ofText shelfText).toOption.any fun t =>
      t.walkRefs == [⟨"Shelf", some ⟨0⟩⟩, ⟨"String", none⟩] &&
        (Declaration.listToJson t.declarations).nesting ≤ maxNesting) = true := by decide +kernel
  cases ht : ofText shelfText with
  | error e => simp [ht, Except.toOption] at hload
  | ok t =>
    simp only [ht, Except.toOption, Option.any_some, Bool.and_eq_true, beq_iff_eq, decide_eq_true_eq] at hload
    exact ⟨t, rfl, hload⟩

theorem library_and_shelf_read_back : (∀ d ∈ library, d.HasPlainBodies) ∧
    (Declaration.listToJson library).nesting ≤ maxNesting ∧
    Declaration.parseList? (Declaration.listToJson library).render = some library ∧
    ∃ t, ofText shelfText = .ok t ∧ t.walkRefs = [⟨"Shelf", some ⟨0⟩⟩, ⟨"String", none⟩] ∧
      (Declaration.listToJson t.declarations).nesting ≤ maxNesting ∧
      ofText (Declaration.listToJson t.declarations).render = .ok t := by
  have hbodies : ∀ d ∈ library, d.HasPlainBodies := by
    simp only [library, List.forall_mem_cons, Declaration.HasPlainBodies]
    exact ⟨⟨⟨[], rfl⟩, by simp⟩, ⟨⟨_, rfl⟩, by simp⟩, by simp⟩
  have hroom : (Declaration.listToJson library).nesting ≤ maxNesting := by decide
  obtain ⟨t, hload, hrefs, hfit⟩ := shelf_loads
  exact ⟨hbodies, hroom, written_declarations_read_back.1 library hbodies hroom,
    t, hload, hrefs, hfit, written_declarations_read_back.2 shelfText t hload hfit⟩

end Table

end Stencil
