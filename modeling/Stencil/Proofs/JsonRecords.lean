import Mathlib.Data.List.Nodup
import Stencil.Json.Decode
import Stencil.Proofs.JsonRoundTrip

/-! Records as they are written, read back: how deep values are nested, which of them are sound, and the fields that
are found in a record whose keys are distinct. -/
namespace Stencil.Json

mutual
def nesting : Json → Nat
  | array items => itemsNesting items + 1
  | object members => membersNesting members + 1
  | _ => 0

def itemsNesting : List Json → Nat
  | [] => 0
  | v :: vs => max v.nesting (itemsNesting vs)

def membersNesting : List (Option String × Json) → Nat
  | [] => 0
  | m :: ms => max (memberNesting m) (membersNesting ms)

def memberNesting : Option String × Json → Nat
  | (_, v) => v.nesting
end

variable {room : Nat}

theorem itemsNesting_le {vs : List Json} : itemsNesting vs ≤ room ↔ ∀ v ∈ vs, v.nesting ≤ room := by
  induction vs with
  | nil => simp [itemsNesting]
  | cons v vs ih => rw [itemsNesting, Nat.max_le, ih, List.forall_mem_cons]

theorem membersNesting_le {ms : List (Option String × Json)} :
    membersNesting ms ≤ room ↔ ∀ m ∈ ms, m.2.nesting ≤ room := by
  induction ms with
  | nil => simp [membersNesting]
  | cons m ms ih => rw [membersNesting, Nat.max_le, ih, List.forall_mem_cons, memberNesting]

theorem nesting_array_le {items : List Json} :
    (Json.array items).nesting ≤ room ↔ ∃ r, room = r + 1 ∧ ∀ v ∈ items, v.nesting ≤ r := by
  cases room with
  | zero => simp [nesting]
  | succ r => simp [nesting, itemsNesting_le]

theorem nesting_record_le {ms : List (String × Json)} :
    (record ms).nesting ≤ room ↔ ∃ r, room = r + 1 ∧ ∀ m ∈ ms, m.2.nesting ≤ r := by
  cases room with
  | zero => simp [record, nesting]
  | succ r =>
    simp only [record, nesting, Nat.add_le_add_iff_right, membersNesting_le, List.forall_mem_map,
      Nat.add_right_cancel_iff, exists_eq_left']

theorem areSound_eq (vs : List Json) (room : Nat) : areSound vs room = vs.all (·.isSound room) := by
  induction vs with
  | nil => rfl
  | cons v vs ih => rw [areSound, ih, List.all_cons]

theorem membersAreSound_eq (ms : List (Option String × Json)) (room : Nat) :
    membersAreSound ms room = ms.all (memberIsSound · room) := by
  induction ms with
  | nil => rfl
  | cons m ms ih => rw [membersAreSound, ih, List.all_cons]

theorem Plain.isSound {v : Json} (h : Plain v) (hroom : v.nesting ≤ room) : v.isSound room = true := by
  induction h generalizing room with
  | null => rfl
  | bool b => rfl
  | natural h => rw [Json.natural, Json.isSound, Number.isHuge_toString h, Bool.not_false]
  | text s => rfl
  | array h ih =>
    obtain ⟨r, rfl, hitems⟩ := nesting_array_le.1 hroom
    rw [Json.isSound, areSound_eq, List.all_eq_true]
    exact fun v hv => ih v hv (hitems v hv)
  | record h ih =>
    obtain ⟨r, rfl, hmembers⟩ := nesting_record_le.1 hroom
    rw [Json.record, Json.isSound, membersAreSound_eq, List.all_map, List.all_eq_true]
    exact fun m hm => ih m hm (hmembers m hm)

theorem plain_items {α : Type} {write : α → Json} {xs : List α} (h : ∀ x ∈ xs, Plain (write x)) :
    Plain (.array (xs.map write)) := .array (List.forall_mem_map.2 h)

theorem mapM_of_forall {α β : Type} {write : α → β} {read : β → Option α} {xs : List α}
    (h : ∀ x ∈ xs, read (write x) = some x) : (xs.map write).mapM read = some xs := by
  induction xs with
  | nil => rfl
  | cons x xs ih =>
    have hx := h x List.mem_cons_self
    have hxs := ih fun y hy => h y (List.mem_cons_of_mem x hy)
    rw [List.map_cons, List.mapM_cons, hx, hxs]
    rfl

theorem members?_record (ms : List (String × Json)) : (record ms).members? = some ms :=
  mapM_of_forall fun _ _ => rfl

/-- Wherever the value fits, it is read as `x`. -/
def ReadBack {α : Type} (read : Nat → Json → Option α) (x : α) (v : Json) : Prop :=
  ∀ room, v.nesting ≤ room → read room v = some x

theorem readBack_items {α : Type} {read : Nat → Json → Option α} {write : α → Json} {xs : List α}
    (h : ∀ x ∈ xs, ReadBack read x (write x)) : ReadBack (items? read) xs (.array (xs.map write)) := by
  intro room hroom
  obtain ⟨r, rfl, hitems⟩ := nesting_array_le.1 hroom
  exact mapM_of_forall fun x hx => h x hx r (hitems _ (List.mem_map_of_mem hx))

def Fields.among (known : List String) (members : List (String × Json)) : Fields :=
  fun name => if name ∈ known then members.lookup name else none

theorem fieldsOfMembers?_eq {known : List String} {ms : List (String × Json)} (h : (ms.map Prod.fst).Nodup) :
    fieldsOfMembers? known ms = some (.among known ms) := by
  have honce (name : String) : (ms.filter (·.1 == name)).length ≤ 1 := by
    have hcount := List.nodup_iff_count_le_one.1 h name
    rwa [List.count, List.countP_map, List.countP_eq_length_filter] at hcount
  rw [fieldsOfMembers?, if_pos (by simp [honce])]
  rfl

theorem record?_record {known : List String} {ms : List (String × Json)} (h : (ms.map Prod.fst).Nodup) (r : Nat) :
    record? known (r + 1) (record ms) = some (.among known ms, r) := by
  have hrecord : record? known (r + 1) (record ms) = (do
      let fields ← fieldsOfMembers? known (← (record ms).members?)
      some (fields, r)) := rfl
  simp [hrecord, members?_record, fieldsOfMembers?_eq h]

theorem keeping?_record {known : List String} {ms : List (String × Json)} (h : (ms.map Prod.fst).Nodup) {r : Nat}
    (hsound : (record ms).isSound (r + 1) = true) :
    keeping? known (r + 1) (record ms) = some (.among known ms, ms.filter (·.1 ∉ known), r) := by
  have hkept : (ms.filter (·.1 ∉ known)).all (·.2.isSound r) = true := by
    rw [record, isSound, membersAreSound_eq, List.all_map, List.all_eq_true] at hsound
    exact List.all_eq_true.2 fun m hm => hsound m (List.mem_filter.1 hm).1
  simp only [keeping?, members?_record, Option.bind_eq_bind, Option.bind_some, hkept, fieldsOfMembers?_eq h]
  rfl

@[simp]
theorem string?_text (s : String) : (text s).string? = some s := rfl

@[simp]
theorem bool?_bool (b : Bool) : (Json.bool b).bool? = some b := rfl

@[simp]
theorem choice?_text {α : Type} (names : List (String × α)) (room : Nat) (s : String) :
    choice? names room (text s) = names.lookup s := by
  cases room <;> rfl

@[simp]
theorem keptChoice?_text {α : Type} (names : List (String × α)) (s : String) :
    keptChoice? names (text s) = names.lookup s := rfl

@[simp]
theorem tag?_text {α : Type} (names : List (String × α)) (s : String) :
    tag? names (text s) = names.lookup s := rfl

@[simp]
theorem keptTag?_text {α : Type} (names : List (String × α)) (s : String) :
    keptTag? names (text s) = names.lookup s := by
  rw [keptTag?, tag?_text]
  simp [text, natural?]

theorem mem_of_lookup {ms : List (String × Json)} {name : String} {v : Json} (h : ms.lookup name = some v) :
    (name, v) ∈ ms := by
  obtain ⟨before, after, rfl, -⟩ := List.lookup_eq_some_iff.1 h
  simp

theorem filter_key_eq {ms : List (String × Json)} (hkeys : (ms.map Prod.fst).Nodup) {key : String} {v : Json}
    (h : ms.lookup key = some v) : ms.filter (·.1 == key) = [(key, v)] := by
  obtain ⟨before, after, rfl, -⟩ := List.lookup_eq_some_iff.1 h
  rw [List.map_append, List.map_cons, List.nodup_middle, List.nodup_cons, List.mem_append, not_or] at hkeys
  have hother (ms : List (String × Json)) (hms : key ∉ ms.map Prod.fst) : ms.filter (·.1 == key) = [] := by
    rw [List.filter_eq_nil_iff]
    intro m hm hkey
    exact hms (List.mem_map.2 ⟨m, hm, beq_iff_eq.1 hkey⟩)
  simp [List.filter_append, hother before hkeys.1.1, hother after hkeys.1.2]

theorem lookup_kept {known : List String} {name : String} (h : name ∉ known) (ms : List (String × Json)) :
    (ms.filter (·.1 ∉ known)).lookup name = ms.lookup name := by
  induction ms with
  | nil => rfl
  | cons m ms ih =>
    obtain ⟨k, v⟩ := m
    by_cases hk : name = k
    · subst hk
      simp [h]
    · have hne : (name == k) = false := beq_false_of_ne hk
      by_cases hknown : k ∈ known
      · rw [List.filter_cons_of_neg (by simpa using hknown), ih, List.lookup_cons, hne]
      · rw [List.filter_cons_of_pos (by simpa using hknown), List.lookup_cons, hne, ih, List.lookup_cons, hne]

theorem nodup_kept {ms : List (String × Json)} (h : (ms.map Prod.fst).Nodup) (known : List String) :
    ((ms.filter (·.1 ∉ known)).map Prod.fst).Nodup :=
  h.sublist (List.filter_sublist.map _)

theorem Fields.optional_among {α : Type} {known : List String} {ms : List (String × Json)} {name : String}
    {read : Json → Option α} (value : Option α) (write : α → Json) (hknown : name ∈ known)
    (hlookup : ms.lookup name = value.map write) (hnull : ∀ x, (write x).isNull = false)
    (hread : ∀ x ∈ value, read (write x) = some x) : (Fields.among known ms).optional name read = some value := by
  have hfield : Fields.among known ms name = value.map write := by rw [Fields.among, if_pos hknown, hlookup]
  cases value with
  | none => simp [Fields.optional, Fields.withDefault, hfield]
  | some x => simp [Fields.optional, Fields.withDefault, hfield, nullable, hnull, hread]

end Stencil.Json
