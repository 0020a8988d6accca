import EntityAccess.Filter.Operator
import EntityAccess.Text.Split

/-!
# filter and sort keys

`members___user___email__ilike` is the path `members`, `user`, the field `email` and the
operator `ilike`; without an operator it is `exact`.  A sort key has no operator and may have a `-`
in front.  Keys are read without a schema.

* `readFilterKey_eq` : a filter key is a path and a tail.
-/

namespace EntityAccess

def relationSeparator : String := "___"
def operatorSeparator : String := "__"

/-- relationships to follow, from the root -/
abbrev Path := List String

/-- the text of a path -/
def Path.text (p : Path) : String := Text.joinWith relationSeparator p

/-- filter keys with their values, in the order of the caller -/
abbrev Filters := List (String × Json)

/-- the entries with a value -/
def Filters.present (fs : Filters) : Filters := fs.filter fun e => !e.2.isNull

structure FilterKey where
  path : Path
  field : String
  operator : Operator
deriving DecidableEq

/-- a filter: what is compared, how, and with which value -/
structure Filter where
  key : FilterKey
  value : Json

structure SortKey where
  path : Path
  field : String
  descending : Bool
deriving DecidableEq

/-- the relationships of a key and what follows the last separator -/
def splitPath (key : String) : Path × String :=
  match Text.splitLast relationSeparator key with
  | some (path, tail) => (Text.splitBy relationSeparator path, tail)
  | none => ([], key)

/-- the field and the operator at the end of a filter key -/
def readTail (tail : String) : Except Error (String × Operator) :=
  match Text.splitLast operatorSeparator tail with
  | some (field, token) => do return (field, ← Operator.ofToken token)
  | none => .ok (tail, .exact)

/-- no part of a key is empty -/
def isWellFormed (path : Path) (field : String) : Bool :=
  field != "" && path.all (· != "")

/-- a filter key; an unknown operator is noticed before an empty part -/
def readFilterKey (key : String) : Except Error FilterKey := do
  let (path, tail) := splitPath key
  let (field, operator) ← readTail tail
  if isWellFormed path field then return ⟨path, field, operator⟩
  else throw (.badRequest (.malformedFilterKey key))

theorem readFilterKey_eq (key : String) :
    readFilterKey key = (do
      let (field, operator) ← readTail (splitPath key).2
      if isWellFormed (splitPath key).1 field then
        return ⟨(splitPath key).1, field, operator⟩
      else throw (.badRequest (.malformedFilterKey key))) := rfl

/-- all filters, or the fault of the first bad key -/
def readFilters (fs : Filters) : Except Error (List Filter) :=
  fs.mapM fun (key, value) => do return ⟨← readFilterKey key, value⟩

/-- a sort key, with white space around it -/
def readSortKey (text : String) : Except Error SortKey :=
  let key := Text.trim text
  let (descending, rest) := match key.toList with
    | '-' :: cs => (true, String.ofList cs)
    | _ => (false, key)
  let (path, field) := splitPath rest
  if isWellFormed path field then .ok ⟨path, field, descending⟩
  else .error (.badRequest (.malformedSortKey key))

/-- sort keys between commas -/
def readSortList (text : String) : Except Error (List SortKey) :=
  (Text.commaItems text).mapM readSortKey

def SortKey.ascending (field : String) : SortKey := ⟨[], field, false⟩

def SortKey.byDescending (field : String) : SortKey := ⟨[], field, true⟩

end EntityAccess
