import EntityAccess.Json.Source.Printer
import EntityAccess.Schema.Document

/-!
# schema documents as text

A document is written with all its fields in the order of their declaration, one that is missing
as null.  A column default is written under a word that says which kind it is.
-/

namespace EntityAccess

open Json (Source)

namespace Json.Source

def ofText (s : String) : Source := .value (.str s)

def ofBool (b : Bool) : Source := .value (.bool b)

/-- null if there is nothing -/
def ofOption {α : Type} (f : α → Source) (o : Option α) : Source := (o.map f).getD (.value .null)

def ofTexts (ss : List String) : Source := .arr (ss.map ofText)

/-- an object with fields in the given order -/
def ofFields (fields : List (String × Source)) : Source :=
  .obj (fields.map fun f => (some f.1, f.2))

end Json.Source

def ColumnDefault.toSource : ColumnDefault → Source
  | .literal sql => .ofFields [("Literal", .ofText sql)]
  | .expression sql => .ofFields [("Expression", .ofFields [("expression", .ofText sql)])]

def ColumnDeclaration.toSource (c : ColumnDeclaration) : Source := .ofFields [
  ("name", .ofText c.name),
  ("type", .ofText c.type.word),
  ("nullable", .ofBool c.nullable),
  ("unique", .ofBool c.unique),
  ("default", .ofOption ColumnDefault.toSource c.default),
  ("read_only", .ofBool c.readOnly)]

def RelationshipDeclaration.toSource (r : RelationshipDeclaration) : Source := .ofFields [
  ("name", .ofText r.name),
  ("kind", .ofText r.kind.word),
  ("target", .ofText r.target),
  ("column", .ofOption .ofText r.column),
  ("on_delete", .ofOption .ofText r.onDelete)]

def VectorDeclaration.toSource (v : VectorDeclaration) : Source := .ofFields [
  ("name", .ofText v.name),
  ("columns", .ofTexts v.columns),
  ("config", .ofOption .ofText v.config)]

def TransitionDeclaration.toSource (t : TransitionDeclaration) : Source := .ofFields [
  ("key", .ofText t.key),
  ("graph", .ofFields (t.graph.entries.map fun e => (e.1, .ofTexts e.2)))]

def EntityDeclaration.toSource (e : EntityDeclaration) : Source := .ofFields [
  ("name", .ofText e.name),
  ("table", .ofOption .ofText e.table),
  ("columns", .arr (e.columns.map ColumnDeclaration.toSource)),
  ("relationships", .arr (e.relationships.map RelationshipDeclaration.toSource)),
  ("search_vectors", .arr (e.searchVectors.map VectorDeclaration.toSource)),
  ("unique", .arr (e.unique.map .ofTexts)),
  ("track_updated_at", .ofBool e.trackUpdatedAt),
  ("transitions", .ofOption TransitionDeclaration.toSource e.transitions)]

namespace Document

def toSource (d : Document) : Source := .ofFields [
  ("schema", .ofText d.schemaName),
  ("entities", .arr (d.entities.map EntityDeclaration.toSource))]

/-- the text of a document -/
def write (d : Document) : String := d.toSource.write

end Document
end EntityAccess
