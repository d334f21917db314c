import Stencil.Emission.SourceText

/-! Lines that are written piece by piece. Main statement: each of the writers of a header or a field writes one line,
whatever the listing holds, and the text of the line is known. -/
namespace Stencil

namespace Listing

theorem write_write (l : Listing) (s t : String) : (l.write s).write t = l.write (s ++ t) := by
  simp [write, String.append_assoc]

theorem write_write? (l : Listing) (s : String) (t? : Option String) :
    (l.write s).write? t? = l.write (s ++ t?.getD "") := by
  cases t? with
  | none => simp [write?]
  | some t => exact l.write_write s t

theorem write_writeLine (l : Listing) (s t : String) : (l.write s).writeLine t = l.writeLine (s ++ t) := by
  simp [write, writeLine, String.append_assoc]

theorem write_endLine (l : Listing) (s : String) : (l.write s).endLine = l.writeLine s := rfl

end Listing

namespace Dialect

variable (δ : Dialect)

def methodHeader (isFinal : Bool) (m : Method) : String :=
  m.visibility.keyword ++ " " ++ ((δ.modifier? isFinal m).map (· ++ " ")).getD "" ++ δ.signature m

def constructorHeader (name : String) (m : Method) (clause : Option String) : String :=
  m.visibility.keyword ++ " " ++ δ.naming.typeName name ++ "(" ++ params δ m.params ++ ")" ++ clause.getD ""

def fieldModifier (f : Field) : String :=
  if f.isConst then δ.constKeyword f.type ++ " "
  else if f.isStatic then δ.staticKeyword ++ " "
  else ""

def inlineInitializer (f : Field) : String :=
  match f.initializer with
  | some expr => if f.isInlineSafe δ.policy then " = " ++ expr else ""
  | none => ""

def fieldLine (f : Field) : String :=
  f.visibility.keyword ++ " " ++ δ.fieldModifier f ++ δ.type f.type ++ " " ++ δ.identifier f.name ++
    δ.inlineInitializer f ++ ";"

def interfaceLine (d : Declaration) : String :=
  interfaceHeader (δ.naming.typeName d.name) ++ (inheritance? none (d.interfaces.map δ.type)).getD ""

def classLine (d : Declaration) : String :=
  δ.classHeader (δ.naming.typeName d.name) d.isFinal ++
    (inheritance? (d.base?.map δ.type) (d.interfaces.map δ.type)).getD ""

theorem writeInterfaceHeader_eq (d : Declaration) (l : Listing) :
    δ.writeInterfaceHeader d l = l.writeLine (δ.interfaceLine d) := by
  rw [writeInterfaceHeader, Listing.write_write?, Listing.write_endLine, interfaceLine]

theorem writeClassHeader_eq (d : Declaration) (l : Listing) :
    δ.writeClassHeader d l = l.writeLine (δ.classLine d) := by
  rw [writeClassHeader, Listing.write_write?, Listing.write_endLine, classLine]

theorem writeConstructorHeader_eq (name : String) (m : Method) (clause : Option String) (l : Listing) :
    δ.writeConstructorHeader name m clause l = l.writeLine (δ.constructorHeader name m clause) := by
  rw [writeConstructorHeader, Listing.write_write, Listing.write_write?, Listing.write_endLine, constructorHeader]
  simp only [String.append_assoc]

theorem writeMethodHeader_eq (isFinal : Bool) (m : Method) (l : Listing) :
    δ.writeMethodHeader isFinal m l = l.writeLine (δ.methodHeader isFinal m) := by
  rw [writeMethodHeader, methodHeader]
  cases δ.modifier? isFinal m with
  | none => simp [Listing.write_write, Listing.write_writeLine]
  | some modifier => simp [Listing.write_write, Listing.write_writeLine, String.append_assoc]

theorem writeField_eq (f : Field) (l : Listing) : δ.writeField f l = l.writeLine (δ.fieldLine f) := by
  have hinit : δ.inlineInitializer f =
      ((f.initializer.filter fun _ => f.isInlineSafe δ.policy).map (" = " ++ ·)).getD "" := by
    rw [inlineInitializer]
    cases f.initializer with
    | none => rfl
    | some expr => cases f.isInlineSafe δ.policy <;> rfl
  rw [fieldLine, hinit, fieldModifier, writeField]
  by_cases hconst : f.isConst = true
  · simp [hconst, Listing.write_write, Listing.write_write?, Listing.write_writeLine, String.append_assoc]
  · by_cases hstatic : f.isStatic = true <;>
      simp [hconst, hstatic, Listing.write_write, Listing.write_write?, Listing.write_writeLine, String.append_assoc]

theorem writeFields_eq (fields : List Field) (l : Listing) :
    fields.foldl (fun l f => δ.writeField f l) l = l.writeLines (fields.map δ.fieldLine) := by
  simp only [writeField_eq, Listing.writeLines, List.foldl_map]

end Dialect

namespace Declaration

variable (δ : Dialect) (d : Declaration)

theorem writeMethod_eq (m : Method) :
    d.writeMethod δ m = (·.writeBlock (δ.methodHeader d.isFinal m) (·.splice m.body)) := by
  funext l
  rw [writeMethod, δ.writeMethodHeader_eq, Listing.writeBlock]

theorem writeConstructor_eq (m : Method) (c : ConstructorBody) :
    d.writeConstructor δ m c = (·.writeBlock (δ.constructorHeader d.name m c.clause) (·.splice c.body)) := by
  funext l
  rw [writeConstructor, δ.writeConstructorHeader_eq, Listing.writeBlock]

theorem leadingSections_eq : d.leadingSections δ =
    (if d.delegates.isEmpty then [] else [(·.writeLines (d.delegates.map δ.delegateLine))]) ++
    (if d.fields.isEmpty then [] else [(·.writeLines (d.fields.map δ.fieldLine))]) ++
    (if (d.deferredFields δ.policy).isEmpty then [] else [d.writeInitializer δ]) := by
  simp only [leadingSections, δ.writeFields_eq]

theorem writeClass_eq (l : Listing) : d.writeClass δ l =
    d.methods.mapM (d.methodSection δ) >>= fun methods =>
      pure (l.writeBlock (δ.classLine d) (·.writeSections (d.leadingSections δ ++ methods))) := by
  simp only [writeClass, δ.writeClassHeader_eq, Listing.writeBlock]

theorem writeInterface_eq : d.writeInterface δ = fun l =>
    (l.writeParagraph (d.delegates.map δ.delegateLine)).writeBlock (δ.interfaceLine d)
      (·.writeLines ((d.methods.filter (!·.isConstructor)).map (δ.signature · ++ ";"))) := by
  funext l
  rw [writeInterface, δ.writeInterfaceHeader_eq, Listing.writeBlock]

end Declaration

end Stencil
