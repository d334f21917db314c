import Stencil.Dialect.Basic
import Stencil.Emission.Error

/-!
Constructors. A body may begin with a marked call of another constructor; the call moves into the
signature, and the call of the initializer method comes in front of the statements that remain.
-/
namespace Stencil

inductive Delegation
  | sameClass (args : List Char)
  | base (args : List Char)
deriving DecidableEq, Repr

namespace Delegation

def selfMarker : List Char := "this-call".toList

def baseMarker : List Char := "super-call".toList

def markerEnd : List Char := "-call".toList

def args? (marker line : List Char) : Option (List Char) :=
  match marker.isPrefixOf? line with
  | some rest =>
    let rest := Text.trimStart rest
    if rest.head? = some '(' then some rest else none
  | none => none

def markerWord? (line : List Char) : Option (List Char) :=
  if line.contains '(' then
    let head := Text.trimEnd (line.takeWhile (· ≠ '('))
    (markerEnd.reverse.isPrefixOf? head.reverse).map List.reverse
  else none

/-- The line is shaped like a marked call; that the marker is unknown is not asked. -/
def isMarked (line : List Char) : Bool :=
  match markerWord? line with
  | some word => !word.isEmpty && word.all Text.isAlphabetic
  | none => false

def parse (line : List Char) : Except Unit (Option Delegation) :=
  match args? selfMarker line, args? baseMarker line with
  | some args, _ => .ok (some (.sameClass args))
  | none, some args => .ok (some (.base args))
  | none, none => if isMarked line then .error () else .ok none

def trimArgs (args : List Char) : List Char :=
  Text.trimEnd (Text.dropTail (· = ';') (Text.trimEnd args))

def call (δ : Dialect) : Delegation → String
  | sameClass args => δ.selfCall ++ .ofList (trimArgs args)
  | base args => δ.baseCall ++ .ofList (trimArgs args)

end Delegation

structure ConstructorBody where
  clause : Option String
  body : Listing
deriving DecidableEq, Repr

namespace ConstructorBody

def delegation? (declaration : String) (body : Listing) : Except EmitError (Option (Nat × Delegation)) :=
  match body.firstStatement? with
  | none => .ok none
  | some i =>
    let line := Text.trim ((body.lines[i]?.map Line.text).getD "").toList
    match Delegation.parse line with
    | .ok found => .ok (found.map (Prod.mk i))
    | .error () => .error (.unknownDelegation declaration (.ofList line))

def withInitializer (δ : Dialect) (body : Listing) : Listing :=
  body.insertLine (body.firstStatement?.getD 0) (Dialect.callStatement δ.initializerMethod)

def ofListing (δ : Dialect) (declaration : String) (body : Listing) (initFields : Bool) :
    Except EmitError ConstructorBody := do
  let found ← delegation? declaration body
  let rest := match found with
    | some (i, _) => body.eraseLine i
    | none => body
  return {
    clause := found.map fun (_, d) => Dialect.delegationClause (d.call δ)
    body := if initFields then withInitializer δ rest else rest }

end ConstructorBody

end Stencil
