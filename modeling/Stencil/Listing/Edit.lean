import Stencil.Listing.Basic

/-!
Writing as data: the steps by which a listing grows, and their effect one after the other.
-/
namespace Stencil.Listing

inductive Edit
  | write (text : String)
  | writeLine (text : String)
  | endLine
  | blankLine
  | openBlock
  | closeBlock
  | nest
  | unnest
  | splice (other : Listing)
deriving DecidableEq, Repr

def edit (l : Listing) : Edit → Listing
  | .write text => l.write text
  | .writeLine text => l.writeLine text
  | .endLine => l.endLine
  | .blankLine => l.blankLine
  | .openBlock => l.openBlock
  | .closeBlock => l.closeBlock
  | .nest => l.nest
  | .unnest => l.unnest
  | .splice other => l.splice other

def editAll (l : Listing) (edits : List Edit) : Listing := edits.foldl edit l

end Stencil.Listing
