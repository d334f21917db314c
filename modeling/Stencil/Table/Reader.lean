import Stencil.Declaration.Reader
import Stencil.Table.Arena

/-!
Reading whole tables from JSON.
-/
namespace Stencil

def Table.ofText (text : String) : Except TableError Table :=
  match Declaration.parseList? text with
  | some ds => ofDeclarations ds
  | none => .error .malformed

def Arena.ofText (text : String) : Except TableError Arena :=
  match Declaration.parseList? text with
  | some ds => ofDeclarations ds
  | none => .error .malformed

end Stencil
