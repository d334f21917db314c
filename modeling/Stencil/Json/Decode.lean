import Stencil.Json.Basic
import Stencil.Json.Number

/-!
Reading records and choices out of JSON values. Every reader is told how many levels of arrays and objects
it may still enter. A value that is kept whole before it is understood must be sound throughout; a value
that is passed over is not looked at.
-/
namespace Stencil.Json

def maxNesting : Nat := 127

mutual
def isSound : Json → Nat → Bool
  | null, _ => true
  | bool _, _ => true
  | number lexeme, _ => !Number.isHuge lexeme
  | string text, _ => text.isSome
  | array _, 0 => false
  | array items, room + 1 => areSound items room
  | object _, 0 => false
  | object members, room + 1 => membersAreSound members room

def areSound : List Json → Nat → Bool
  | [], _ => true
  | v :: vs, room => v.isSound room && areSound vs room

def membersAreSound : List (Option String × Json) → Nat → Bool
  | [], _ => true
  | m :: ms, room => memberIsSound m room && membersAreSound ms room

def memberIsSound : Option String × Json → Nat → Bool
  | (key, v), room => key.isSome && v.isSound room
end

def bool? : Json → Option Bool
  | bool b => some b
  | _ => none

def string? : Json → Option String
  | string text => text
  | _ => none

def natural? : Json → Option Nat
  | number lexeme => Number.natural? lexeme
  | _ => none

def isNull : Json → Bool
  | null => true
  | _ => false

def nullable {α : Type} (read : Json → Option α) (v : Json) : Option (Option α) :=
  if v.isNull then some none else (read v).map some

def items? {α : Type} (read : Nat → Json → Option α) : Nat → Json → Option (List α)
  | room + 1, array items => items.mapM (read room)
  | _, _ => none

def members? : Json → Option (List (String × Json))
  | object members => members.mapM fun (key, v) => key.map (·, v)
  | _ => none

abbrev Fields := String → Option Json

def fieldsOfMembers? (known : List String) (members : List (String × Json)) : Option Fields :=
  if known.all (fun name => (members.filter (·.1 == name)).length ≤ 1) then
    some fun name => if name ∈ known then members.lookup name else none
  else none

def fieldsOfItems? (known : List String) (items : List Json) : Option Fields :=
  if items.length ≤ known.length then some fun name => (known.zip items).lookup name else none

def record? (known : List String) : Nat → Json → Option (Fields × Nat)
  | room + 1, array items => (fieldsOfItems? known items).map (·, room)
  | room + 1, v => do
    let fields ← fieldsOfMembers? known (← v.members?)
    some (fields, room)
  | 0, _ => none

def keeping? (known : List String) : Nat → Json → Option (Fields × List (String × Json) × Nat)
  | 0, _ => none
  | room + 1, v => do
    let members ← v.members?
    let kept := members.filter (·.1 ∉ known)
    if kept.all (·.2.isSound room) then return (← fieldsOfMembers? known members, kept, room) else none

namespace Fields

def required {α : Type} (fields : Fields) (name : String) (read : Json → Option α) : Option α :=
  fields name >>= read

def withDefault {α : Type} (fields : Fields) (name : String) (default : α) (read : Json → Option α) :
    Option α :=
  match fields name with
  | some v => read v
  | none => some default

def optional {α : Type} (fields : Fields) (name : String) (read : Json → Option α) : Option (Option α) :=
  fields.withDefault name none (nullable read)

end Fields

def choice? {α : Type} (names : List (String × α)) : Nat → Json → Option α
  | _, string (some name) => names.lookup name
  | _ + 1, object [(some name, null)] => names.lookup name
  | _, _ => none

/-- A choice in a value that was kept whole; there an empty object may stand for `null`. -/
def keptChoice? {α : Type} (names : List (String × α)) : Json → Option α
  | string (some name) => names.lookup name
  | object [(some name, null)] => names.lookup name
  | object [(some name, object [])] => names.lookup name
  | _ => none

def tag? {α : Type} (names : List (String × α)) (v : Json) : Option α := v.string? >>= (names.lookup ·)

/-- The tag of a variant in a value that was kept whole; there the number of the variant will do. -/
def keptTag? {α : Type} (names : List (String × α)) (v : Json) : Option α :=
  tag? names v <|> (v.natural? >>= (names[·]?)).map Prod.snd

end Stencil.Json
