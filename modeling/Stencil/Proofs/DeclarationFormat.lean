import Stencil.Declaration.Printer
import Stencil.Declaration.Reader
import Stencil.Proofs.JsonRecords
import Stencil.Proofs.PrintedListings

/-! Types and declarations read back from the values that are written for them. Main statement: a list of
declarations is read back from its text, as long as its bodies are finished lines and nesting keeps to the limit. -/
namespace Stencil

namespace TypeExpr

@[elab_as_elim]
theorem induct {P : TypeExpr → Prop} (primitive : ∀ p, P (.primitive p)) (named : ∀ r, P (.named r))
    (vector : ∀ t, P t → P (.vector t))
    (function : ∀ result params, (∀ t ∈ result, P t) → (∀ t ∈ params, P t) → P (.function result params))
    (t : TypeExpr) : P t :=
  @TypeExpr.rec P (fun result => ∀ t ∈ result, P t) (fun params => ∀ t ∈ params, P t) primitive named vector function
    (by simp) (fun t ht => by simpa using ht) (by simp) (fun t ts ht hts => List.forall_mem_cons.2 ⟨ht, hts⟩) t

theorem resultToJson_eq (result : Option TypeExpr) : resultToJson result = result.map toJson := by
  cases result <;> rfl

theorem paramsToJson_eq (params : List TypeExpr) : paramsToJson params = params.map toJson := by
  induction params with
  | nil => rfl
  | cons t ts ih => rw [paramsToJson, ih, List.map_cons]

end TypeExpr

open Json

@[simp]
theorem Json.lookup_memberIf (name key : String) (value : Option Json) :
    (memberIf key value).lookup name = if name = key then value else none := by
  cases value with
  | none => simp [memberIf]
  | some v =>
    by_cases h : name = key
    · simp [memberIf, h]
    · simp [memberIf, List.lookup_cons, h, beq_eq_false_iff_ne.2 h]

theorem Json.forall_memberIf {α : Type} {P : String × Json → Prop} {key : String} {value : Option α}
    {write : α → Json} : (∀ m ∈ memberIf key (value.map write), P m) ↔ ∀ x ∈ value, P (key, write x) := by
  cases value <;> simp [memberIf]

theorem Handle.ofJson?_toJson (h : Handle) : Handle.ofJson? h.toJson = some h := by
  have hlt : h.index.toNat < UInt32.size := h.index.toNat_lt
  have hread : h.toJson.natural? = some h.index.toNat := Number.natural?_toString (lt_trans hlt (by decide))
  simp [Handle.ofJson?, hread, hlt]

theorem Handle.plain_toJson (h : Handle) : Plain h.toJson := .natural h.index.toNat_lt

theorem Primitive.lookup_jsonName (p : Primitive) : Primitive.names.lookup p.jsonName = some p := by
  cases p <;> rfl

theorem Visibility.lookup_keyword (v : Visibility) : Visibility.names.lookup v.keyword = some v := by
  cases v <;> rfl

namespace TypeExpr

def TakesName (tag : Json → Option Variant) : Prop := ∀ name, tag (text name) = Variant.names.lookup name

theorem variant?_record {tag : Json → Option Variant} (htag : TakesName tag) {ms : List (String × Json)}
    (hkeys : (ms.map Prod.fst).Nodup) (name : String) (hkind : ms.lookup "kind" = some (text name))
    {variant : Variant} (hname : Variant.names.lookup name = some variant) :
    variant? tag (record ms) = some (variant, .among variant.fieldNames ms) := by
  rw [variant?]
  · simp [members?_record, filter_key_eq hkeys hkind, htag name, hname, fieldsOfMembers?_eq hkeys]
  · intro first items h
    cases h

theorem isNull_toJson (t : TypeExpr) : t.toJson.isNull = false := by
  cases t <;> rfl

theorem ofKept?_toJson {tag : Json → Option Variant} (htag : TakesName tag) (t : TypeExpr) {room : Nat}
    (hroom : t.toJson.nesting ≤ room) : ofKept? tag room t.toJson = some t := by
  -- the types inside are read with another reader of tags than the outermost one, hence for every reader
  induction t using TypeExpr.induct generalizing tag room with
  | primitive p =>
    obtain ⟨r, rfl, -⟩ := nesting_record_le.1 hroom
    rw [toJson, ofKept?, variant?_record htag (by simp) "primitive" (by simp) rfl]
    simp [Fields.required, Fields.among, Variant.fieldNames, List.lookup_cons, Primitive.lookup_jsonName]
  | named ref =>
    obtain ⟨r, rfl, -⟩ := nesting_record_le.1 hroom
    rw [toJson, ofKept?, variant?_record htag (by cases ref.handle <;> simp [memberIf]) "class" (by simp) rfl]
    simp only [Option.bind_eq_bind, Option.bind_some]
    rw [Fields.optional_among ref.handle Handle.toJson (by simp [Variant.fieldNames])
      (by simp [List.lookup_cons]) (fun _ => rfl) (fun h _ => h.ofJson?_toJson)]
    simp [Fields.required, Fields.among, Variant.fieldNames, List.lookup_cons]
  | vector t ih =>
    obtain ⟨r, rfl, hm⟩ := nesting_record_le.1 hroom
    have helement := ih (keptTag?_text Variant.names) (hm ("element", t.toJson) (by simp))
    rw [toJson, ofKept?, variant?_record htag (by simp) "vector" (by simp) rfl]
    simp [Fields.required, Fields.among, Variant.fieldNames, List.lookup_cons, helement]
  | function result params ihresult ihparams =>
    rw [toJson, resultToJson_eq, paramsToJson_eq] at hroom ⊢
    obtain ⟨r, rfl, hm⟩ := nesting_record_le.1 hroom
    simp only [List.forall_mem_append, List.forall_mem_singleton, forall_memberIf] at hm
    obtain ⟨⟨-, hret⟩, hitems⟩ := hm
    have hresult (t : TypeExpr) (ht : t ∈ result) : ofKept? (keptTag? Variant.names) r t.toJson = some t :=
      ihresult t ht (keptTag?_text Variant.names) (hret t ht)
    have hparams : (params.map toJson).mapM (ofKept? (keptTag? Variant.names) r) = some params := by
      obtain ⟨depth, rfl, hfit⟩ := nesting_array_le.1 hitems
      refine mapM_of_forall fun t ht => ihparams t ht (keptTag?_text Variant.names) ?_
      exact le_trans (hfit _ (List.mem_map_of_mem ht)) (Nat.le_succ depth)
    rw [ofKept?, variant?_record htag (by cases result <;> simp [memberIf]) "function" (by simp) rfl]
    simp only [Option.bind_eq_bind, Option.bind_some]
    rw [Fields.optional_among result toJson (by simp [Variant.fieldNames])
      (by simp [List.lookup_append, List.lookup_cons]) isNull_toJson hresult]
    simp [Fields.withDefault, Fields.among, Variant.fieldNames, List.lookup_append, List.lookup_cons,
      hparams]

theorem plain_toJson (t : TypeExpr) : Plain t.toJson := by
  induction t using TypeExpr.induct with
  | primitive p =>
    rw [toJson]
    exact .record (by simp [Plain.text])
  | named ref =>
    rw [toJson]
    refine .record ?_
    simp only [List.forall_mem_append, List.forall_mem_cons, forall_memberIf]
    exact ⟨⟨.text _, .text _, by simp⟩, fun h _ => h.plain_toJson⟩
  | vector t ih =>
    rw [toJson]
    exact .record (by simp [Plain.text, ih])
  | function result params ihresult ihparams =>
    rw [toJson, resultToJson_eq, paramsToJson_eq]
    have hparams : Plain (.array (params.map toJson)) := .array (List.forall_mem_map.2 ihparams)
    refine .record ?_
    simp only [List.forall_mem_append, List.forall_mem_singleton, forall_memberIf]
    exact ⟨⟨.text _, ihresult⟩, hparams⟩

theorem readBack (t : TypeExpr) : ReadBack ofJson? t t.toJson := by
  intro room hroom
  rw [ofJson?, if_pos (t.plain_toJson.isSound hroom)]
  exact ofKept?_toJson (tag?_text Variant.names) t hroom

end TypeExpr

theorem Param.plain_toJson (p : Param) : Plain p.toJson := by
  refine .record ?_
  simp only [List.forall_mem_cons]
  exact ⟨p.type.plain_toJson, .text _, by simp⟩

theorem Param.readBack (p : Param) : ReadBack Param.ofJson? p p.toJson := by
  intro room hroom
  obtain ⟨r, rfl, hm⟩ := nesting_record_le.1 hroom
  simp only [List.forall_mem_cons] at hm
  obtain ⟨htype, -⟩ := hm
  rw [Param.ofJson?, Param.toJson, record?_record (by simp)]
  simp [Fields.required, Fields.among, List.lookup_cons, p.type.readBack r htype]

theorem Field.plain_toJson (f : Field) : Plain f.toJson := by
  refine .record ?_
  simp only [List.forall_mem_append, List.forall_mem_cons, forall_memberIf]
  exact ⟨⟨.text _, .bool _, .bool _, f.type.plain_toJson, .text _, by simp⟩, fun s _ => .text s⟩

theorem Field.readBack (f : Field) : ReadBack Field.ofJson? f f.toJson := by
  intro room hroom
  obtain ⟨r, rfl, hm⟩ := nesting_record_le.1 hroom
  simp only [List.forall_mem_append, List.forall_mem_cons] at hm
  obtain ⟨⟨-, -, -, htype, -⟩, -⟩ := hm
  rw [Field.ofJson?, Field.toJson, record?_record (by cases f.initializer <;> simp [memberIf])]
  simp only [Option.bind_eq_bind, Option.bind_some]
  rw [Fields.optional_among f.initializer text (by simp)
    (by simp [List.lookup_cons]) (fun _ => rfl) fun s _ => string?_text s]
  simp [Fields.required, Fields.withDefault, Fields.among, List.lookup_cons, f.type.readBack r htype,
    Visibility.lookup_keyword]

theorem Delegate.plain_toJson (d : Delegate) : Plain d.toJson := by
  refine .record ?_
  simp only [List.forall_mem_append, List.forall_mem_singleton, forall_memberIf]
  exact ⟨⟨.text _, fun t _ => t.plain_toJson⟩, plain_items fun p _ => p.plain_toJson⟩

theorem Delegate.readBack (d : Delegate) : ReadBack Delegate.ofJson? d d.toJson := by
  intro room hroom
  obtain ⟨r, rfl, hm⟩ := nesting_record_le.1 hroom
  simp only [List.forall_mem_append, List.forall_mem_singleton, forall_memberIf] at hm
  obtain ⟨⟨-, hresult⟩, hparams⟩ := hm
  rw [Delegate.ofJson?, Delegate.toJson, record?_record (by cases d.result <;> simp [memberIf])]
  simp only [Option.bind_eq_bind, Option.bind_some]
  rw [Fields.optional_among d.result TypeExpr.toJson (by simp)
    (by simp [List.lookup_append, List.lookup_cons]) TypeExpr.isNull_toJson
    fun t ht => t.readBack r (hresult t ht)]
  simp [Fields.required, Fields.withDefault, Fields.among, List.lookup_append, List.lookup_cons,
    readBack_items (fun p _ => p.readBack) r hparams]

theorem Listing.readBack (texts : List String) :
    ReadBack Listing.ofJson? (.ofTexts texts) (Listing.ofTexts texts).toJson := by
  intro room hroom
  rw [Listing.toJson, Listing.toTexts_ofTexts] at hroom ⊢
  have hitems : ReadBack (items? fun _ => string?) texts (ofStrings texts) :=
    readBack_items fun s _ _ _ => string?_text s
  rw [Listing.ofJson?, hitems room hroom, Option.map_some]

theorem MethodFlags.ofFields?_among (f : MethodFlags) {ms : List (String × Json)}
    (h : ∀ name ∈ fieldNames, ms.lookup name = f.members.lookup name) :
    ofFields? (.among fieldNames ms) = some f := by
  simp only [fieldNames, List.forall_mem_cons] at h
  obtain ⟨hstatic, hoverride, hconstructor, hgetter, hsetter, -⟩ := h
  simp [ofFields?, Fields.withDefault, Fields.among, fieldNames, members, List.lookup_cons, hstatic, hoverride,
    hconstructor, hgetter, hsetter]

theorem Method.plain_toJson (m : Method) : Plain m.toJson := by
  refine .record ?_
  simp only [List.forall_mem_append, List.forall_mem_cons, forall_memberIf, MethodFlags.members]
  exact ⟨⟨⟨⟨⟨.text _, by simp⟩, .bool _, .bool _, .bool _, .bool _, .bool _, by simp⟩, .text _, by simp⟩,
    fun t _ => t.plain_toJson⟩, plain_items fun p _ => p.plain_toJson, plain_items fun s _ => .text s, by simp⟩

theorem Method.exists_members (m : Method) : ∃ ms, m.toJson = record ms ∧ (ms.map Prod.fst).Nodup ∧
    ms.lookup "visibility" = some (text m.visibility.keyword) ∧
    (∀ name ∈ MethodFlags.fieldNames, ms.lookup name = m.flags.members.lookup name) ∧
    ms.lookup "name" = some (text m.name) ∧
    ms.lookup "return_type" = m.result.map TypeExpr.toJson ∧
    ms.lookup "params" = some (.array (m.params.map Param.toJson)) ∧
    ms.lookup "body" = some m.body.toJson := by
  refine ⟨_, rfl, ?_, ?_, ?_, ?_, ?_, ?_, ?_⟩
  · cases m.result <;> simp [memberIf, MethodFlags.members]
  all_goals simp [MethodFlags.fieldNames, MethodFlags.members, List.lookup_append, List.lookup_cons]

theorem Method.readBack {m : Method} (hbody : ∃ texts, m.body = .ofTexts texts) :
    ReadBack Method.ofJson? m m.toJson := by
  intro room hroom
  have hsound := m.plain_toJson.isSound hroom
  obtain ⟨ms, hjson, hkeys, hvisibility, hflags, hname, hresult, hparams, hlines⟩ := m.exists_members
  rw [hjson] at hroom hsound ⊢
  obtain ⟨r, rfl, hm⟩ := nesting_record_le.1 hroom
  have hfit {name : String} {v : Json} (h : ms.lookup name = some v) : v.nesting ≤ r := hm _ (mem_of_lookup h)
  have htype (t : TypeExpr) (ht : t ∈ m.result) : TypeExpr.ofJson? r t.toJson = some t := by
    rw [Option.mem_def.1 ht, Option.map_some] at hresult
    exact t.readBack r (hfit hresult)
  have hlisting : Listing.ofJson? r m.body.toJson = some m.body := by
    obtain ⟨texts, hbody⟩ := hbody
    rw [hbody] at hlines ⊢
    exact Listing.readBack texts r (hfit hlines)
  rw [Method.ofJson?, keeping?_record hkeys hsound]
  simp only [Option.bind_eq_bind, Option.bind_some]
  rw [fieldsOfMembers?_eq (nodup_kept hkeys _)]
  simp only [Option.bind_some]
  rw [m.flags.ofFields?_among ?flags,
    Fields.optional_among m.result TypeExpr.toJson (by simp) hresult TypeExpr.isNull_toJson htype]
  · simp [Fields.required, Fields.withDefault, Fields.among, hvisibility, hname, hparams, hlines,
      readBack_items (fun p _ => p.readBack) r (hfit hparams), Visibility.lookup_keyword, hlisting]
  case flags =>
    -- no flag is among the known fields, so all of them are kept
    intro name hflag
    rw [lookup_kept ?_, hflags name hflag]
    revert name
    simp [MethodFlags.fieldNames]

namespace DeclarationKind

theorem plain_members (k : DeclarationKind) : ∀ m ∈ k.members, Plain m.2 := by
  cases k with
  | interfaceKind => simp [members, Plain.text]
  | classKind base =>
    simp only [members, List.forall_mem_append, List.forall_mem_singleton, forall_memberIf]
    exact ⟨.text _, fun t _ => t.plain_toJson⟩

theorem lookup_members {k : DeclarationKind} {name : String} (hkind : name ≠ "kind") (hbase : name ≠ "extends") :
    k.members.lookup name = none := by
  cases k with
  | interfaceKind => simp [members, List.lookup_cons, beq_false_of_ne hkind]
  | classKind base => simp [members, List.lookup_cons, beq_false_of_ne hkind, hbase]

theorem ofMembers?_eq {k : DeclarationKind} {kept : List (String × Json)} (hkeys : (kept.map Prod.fst).Nodup)
    (hkind : kept.lookup "kind" = k.members.lookup "kind")
    (hbase : kept.lookup "extends" = k.members.lookup "extends") {room : Nat}
    (hroom : ∀ m ∈ k.members, m.2.nesting ≤ room) : ofMembers? room kept = some k := by
  cases k with
  | interfaceKind =>
    have htag : kept.lookup "kind" = some (text "interface") := hkind
    have hlookup : Variant.names.lookup "interface" = some .interfaceKind := rfl
    simp [ofMembers?, filter_key_eq hkeys htag, hlookup]
  | classKind base =>
    have htag : kept.lookup "kind" = some (text "class") := hkind
    have hlookup : Variant.names.lookup "class" = some .classKind := rfl
    have htype : kept.lookup "extends" = base.map TypeExpr.toJson := by
      rw [hbase]
      simp [members, List.lookup_cons]
    simp only [members, List.forall_mem_append, forall_memberIf] at hroom
    have hread (t : TypeExpr) (ht : t ∈ base) :
        TypeExpr.ofKept? (keptTag? TypeExpr.Variant.names) room t.toJson = some t :=
      TypeExpr.ofKept?_toJson (keptTag?_text _) t (hroom.2 t ht)
    have hoptional := Fields.optional_among base TypeExpr.toJson (List.mem_singleton.2 rfl) htype
      TypeExpr.isNull_toJson hread
    simp [ofMembers?, filter_key_eq hkeys htag, hlookup, fieldsOfMembers?_eq hkeys, hoptional]

end DeclarationKind

namespace Declaration

theorem plain_toJson (d : Declaration) : Plain d.toJson := by
  refine .record ?_
  simp only [List.forall_mem_append, List.forall_mem_cons]
  exact ⟨d.kind.plain_members, .text _, .text _, .bool _, plain_items fun t _ => t.plain_toJson,
    plain_items fun f _ => f.plain_toJson, plain_items fun m _ => m.plain_toJson,
    plain_items fun g _ => g.plain_toJson, plain_items fun t _ => t.plain_toJson, by simp⟩

def HasPlainBodies (d : Declaration) : Prop := ∀ m ∈ d.methods, ∃ texts, m.body = .ofTexts texts

theorem exists_members (d : Declaration) : ∃ ms, d.toJson = record ms ∧ (ms.map Prod.fst).Nodup ∧
    (∀ m ∈ d.kind.members, m ∈ ms) ∧
    ms.lookup "kind" = d.kind.members.lookup "kind" ∧
    ms.lookup "extends" = d.kind.members.lookup "extends" ∧
    ms.lookup "package" = some (text d.package) ∧
    ms.lookup "name" = some (text d.name) ∧
    ms.lookup "is_final" = some (.bool d.isFinal) ∧
    ms.lookup "interfaces" = some (.array (d.interfaces.map TypeExpr.toJson)) ∧
    ms.lookup "fields" = some (.array (d.fields.map Field.toJson)) ∧
    ms.lookup "methods" = some (.array (d.methods.map Method.toJson)) ∧
    ms.lookup "function_types" = some (.array (d.delegates.map Delegate.toJson)) ∧
    ms.lookup "additional_imports" = some (.array (d.extraImports.map TypeExpr.toJson)) := by
  refine ⟨_, rfl, ?_, fun m hm => List.mem_append_left _ hm, ?_⟩
  · cases d.kind with
    | interfaceKind => simp [DeclarationKind.members]
    | classKind base => cases base <;> simp [DeclarationKind.members, memberIf]
  · simp [List.lookup_append, List.lookup_cons, DeclarationKind.lookup_members]

theorem readBack {d : Declaration} (hbodies : d.HasPlainBodies) : ReadBack ofJson? d d.toJson := by
  intro room hroom
  have hsound := d.plain_toJson.isSound hroom
  obtain ⟨ms, hjson, hkeys, hsub, hkind, hbase, hpackage, hname, hfinal, hinterfaces, hfields, hmethods, hdelegates,
    himports⟩ := d.exists_members
  rw [hjson] at hroom hsound ⊢
  obtain ⟨r, rfl, hm⟩ := nesting_record_le.1 hroom
  have hfit {name : String} {v : Json} (h : ms.lookup name = some v) : v.nesting ≤ r := hm _ (mem_of_lookup h)
  rw [ofJson?, keeping?_record hkeys hsound]
  simp only [Option.bind_eq_bind, Option.bind_some]
  rw [DeclarationKind.ofMembers?_eq (nodup_kept hkeys _) ((lookup_kept (by simp) ms).trans hkind)
    ((lookup_kept (by simp) ms).trans hbase) fun m hk => hm m (hsub m hk)]
  simp [Fields.required, Fields.withDefault, Fields.among, hpackage, hname, hfinal, hinterfaces, hfields, hmethods,
    hdelegates, himports, readBack_items (fun t _ => t.readBack) r (hfit hinterfaces),
    readBack_items (fun f _ => f.readBack) r (hfit hfields),
    readBack_items (fun m hm => Method.readBack (hbodies m hm)) r (hfit hmethods),
    readBack_items (fun g _ => g.readBack) r (hfit hdelegates),
    readBack_items (fun t _ => t.readBack) r (hfit himports)]

theorem parseList?_render {ds : List Declaration} (hbodies : ∀ d ∈ ds, d.HasPlainBodies)
    (hroom : (listToJson ds).nesting ≤ maxNesting) : parseList? (listToJson ds).render = some ds := by
  have hplain : Plain (listToJson ds) := plain_items fun d _ => d.plain_toJson
  rw [parseList?, parse?_render hplain]
  exact readBack_items (fun d hd => readBack (hbodies d hd)) maxNesting hroom

end Declaration

end Stencil
