import Stencil.Dialect.Basic

/-!
The dialect of C#. Names are kept as they are, since bodies refer to members by their names.
-/
namespace Stencil.Dialect

namespace CSharp

def reserved : List String := [
  "abstract", "as", "base", "bool", "break", "byte", "case", "catch", "char", "checked", "class", "const",
  "continue", "decimal", "default", "delegate", "do", "double", "else", "enum", "event", "explicit",
  "extern", "false", "finally", "fixed", "float", "for", "foreach", "goto", "if", "implicit", "in", "int",
  "interface", "internal", "is", "lock", "long", "namespace", "new", "null", "object", "operator", "out",
  "override", "params", "private", "protected", "public", "readonly", "ref", "return", "sbyte", "sealed",
  "short", "sizeof", "stackalloc", "static", "string", "struct", "switch", "this", "throw", "true", "try",
  "typeof", "uint", "ulong", "unchecked", "unsafe", "ushort", "using", "virtual", "void", "volatile",
  "while"]

def naming : Naming := { reserved, escape := ("@" ++ ·) }

def builtin? (name : String) : Option String :=
  if name = "String" ∨ name = "Object" then some name
  else if name = "Function" then some "Delegate"
  else if name = "Error" then some "Exception"
  else none

def primitive : Primitive → String
  | .int => "int"
  | .uint => "uint"
  | .number => "float"
  | .boolean => "bool"
  | .any => "Object"

def function : Option String → List String → String
  | none, [] => "Action"
  | none, params => "Action<" ++ ", ".intercalate params ++ ">"
  | some result, params => "Func<" ++ ", ".intercalate (params ++ [result]) ++ ">"

def writeLoop (l : Listing) (loop : Loop) : Listing :=
  let items := "__" ++ loop.item ++ "s_"
  ((l.writeLine (loop.collectionType ++ " " ++ items ++ " = " ++ loop.collection ++ ";")
    |>.writeLine ("if (" ++ items ++ " != null)")).openBlock
    |>.writeLine ("foreach (" ++ loop.itemType ++ " " ++ loop.item ++ " in " ++ items ++ ")"))
    |>.openBlock |>.splice loop.body |>.closeBlock |>.closeBlock

end CSharp

def csharp (indent : Indent := .standard) (policy : InitPolicy := .deferConstructions) : Dialect where
  language := "csharp"
  extension := "cs"
  naming := CSharp.naming
  indent
  policy
  getterName := fun name => "get" ++ Text.capitalize name
  setterName := fun name => "set" ++ Text.capitalize name
  builtin? := CSharp.builtin?
  primitive := CSharp.primitive
  testedClass := fun name => (CSharp.builtin? name).getD (CSharp.naming.typeName name)
  vector := fun element => "Vector<" ++ element ++ ">"
  function := CSharp.function
  preamble := ["using System;"]
  importKeyword := "using"
  finalKeyword := "sealed"
  constKeyword := fun type => if type.isClassLike then "static" else "const"
  writeLoop := CSharp.writeLoop

end Stencil.Dialect
