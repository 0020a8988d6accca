import EntityAccess.Filter.Key
import EntityAccess.Page
import EntityAccess.Query.Search

/-!
# queries of listings

Some names of a listing's query are reserved; every other one is a filter key.  Repeated sort and
include lists add up, of other reserved names the last one counts.

* `readFlag_true` : words are read in any case.
-/

namespace EntityAccess.Http

structure ListQuery where
  filters : Filters
  sort : List SortKey
  includes : List String
  page : PageParams
  search : Option SearchParams
  isExport : Bool

namespace ListQuery

/-- a number that is not negative -/
def readCount (key raw : String) : Except Error Nat :=
  match Number.readNat Number.maxUnsigned (Text.trim raw).toList with
  | .ok n => .ok n
  | .error _ => .error (.badRequest (.notNonNegative key))

/-- a truth value; blank is false -/
def readFlag (key raw : String) : Except Error Bool :=
  let word := Text.lowerAscii (Text.trim raw)
  if word = "true" ∨ word = "1" then .ok true
  else if word = "false" ∨ word = "0" ∨ word = "" then .ok false
  else .error (.badRequest (.notFlag key))

theorem readFlag_true {key raw : String} (h : Text.lowerAscii (Text.trim raw) = "true") :
    readFlag key raw = .ok true := by
  simp [readFlag, h]

/-- a query that has been read in part -/
structure Draft where
  filters : Filters
  sort : List SortKey
  includes : List String
  page : Nat
  perPage : Nat
  search : SearchParams
  isExport : Bool

def Draft.start (perPage : Nat) : Draft := ⟨[], [], [], 1, perPage, ⟨"", none, false⟩, false⟩

/-- one more field -/
def Draft.add (d : Draft) (field : String × String) : Except Error Draft :=
  let (key, value) := field
  match key with
  | "page" => (readCount key value).map fun n => { d with page := n }
  | "per_page" => (readCount key value).map fun n => { d with perPage := n }
  | "sort" => (readSortList value).map fun ks => { d with sort := d.sort ++ ks }
  | "include" => .ok { d with includes := d.includes ++ Text.commaItems value }
  | "q" => .ok { d with search := { d.search with text := value } }
  | "vector" => .ok { d with search := { d.search with vector := some value } }
  | "by_relevance" =>
    (readFlag key value).map fun b => { d with search := { d.search with byRelevance := b } }
  | "export" => (readFlag key value).map fun b => { d with isExport := b }
  | _ => .ok { d with filters := d.filters ++ [(key, .str value)] }

/-- the query of the given fields -/
def ofFields (fields : List (String × String)) (defaultPerPage : Nat) :
    Except Error ListQuery := do
  let d ← fields.foldlM Draft.add (Draft.start defaultPerPage)
  let page ← PageParams.ofNumbers d.page d.perPage
  return ⟨d.filters, d.sort, d.includes, page,
    if Text.trim d.search.text = "" then none else some d.search, d.isExport⟩

end ListQuery
end EntityAccess.Http
