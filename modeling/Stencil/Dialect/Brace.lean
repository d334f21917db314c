import Stencil.Dialect.Basic

/-!
A small dialect with plain spellings, which takes what it can from the common conventions.
-/
namespace Stencil.Dialect

def brace : Dialect where
  language := "brace"
  extension := "txt"
  naming := { reserved := ["class", "new", "this", "base"], escape := (· ++ "_") }
  getterName := ("get_" ++ ·)
  setterName := ("set_" ++ ·)
  primitive := Primitive.spelling
  testedClass := id
  vector := fun element => "List<" ++ element ++ ">"
  function := fun result params => "fn(" ++ ", ".intercalate params ++ ") -> " ++ result.getD "void"
  importKeyword := "import"
  finalKeyword := "final"
  constKeyword := fun _ => "const"
  writeLoop := fun l loop =>
    l.writeLine ("for (" ++ loop.itemType ++ " " ++ loop.item ++ " : " ++ loop.collection ++ ")")
      |>.openBlock |>.splice loop.body |>.closeBlock

end Stencil.Dialect
