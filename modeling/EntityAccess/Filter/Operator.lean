import EntityAccess.Schema.Document
import EntityAccess.Sql.Value

/-!
# filter operators

An operator has a token, takes an operand of a certain shape, and makes a predicate of a column and
an operand.  An operand of another shape is taken for what it can be.

* `ofToken?_token` : an operator is read back from its token.
-/

namespace EntityAccess

/-- a column of the root or of a joined table -/
structure ColumnRef where
  tableAlias : String
  column : String
  type : ColumnType
deriving DecidableEq

inductive Comparison where
  | eq
  | ne
  | gt
  | ge
  | lt
  | le
deriving DecidableEq

def Comparison.sql : Comparison → String
  | .eq => "="
  | .ne => "<>"
  | .gt => ">"
  | .ge => ">="
  | .lt => "<"
  | .le => "<="

inductive ListMode where
  | oneOf
  | noneOf
  | noneOfOrNull
  /-- one of an array -/
  | any
deriving DecidableEq

/-- a condition on the rows of a read -/
inductive Predicate where
  | compare (column : ColumnRef) (op : Comparison) (value : SqlValue)
  /-- only the day of the column counts -/
  | compareDay (column : ColumnRef) (op : Comparison) (value : SqlValue)
  | like (column : ColumnRef) (pattern : String) (ignoreCase negated : Bool)
  | null (column : ColumnRef) (negated : Bool)
  | list (column : ColumnRef) (values : List SqlValue) (mode : ListMode)
  /-- a full-text match -/
  | textMatch (vector : ColumnRef) (query config : String)

/-- the same values in the same order -/
def sameValues : List SqlValue → List SqlValue → Bool
  | [], [] => true
  | v :: vs, w :: ws => v.same w && sameValues vs ws
  | _, _ => false

/-- the same condition -/
def Predicate.same : Predicate → Predicate → Bool
  | .compare c o v, .compare c' o' v' => c == c' && o == o' && v.same v'
  | .compareDay c o v, .compareDay c' o' v' => c == c' && o == o' && v.same v'
  | .like c p i n, .like c' p' i' n' => c == c' && p == p' && i == i' && n == n'
  | .null c n, .null c' n' => c == c' && n == n'
  | .list c vs m, .list c' vs' m' => c == c' && sameValues vs vs' && m == m'
  | .textMatch c q g, .textMatch c' q' g' => c == c' && q == q' && g == g'
  | _, _ => false

/-- what an operator does with its value -/
inductive Arity where
  /-- ignores it -/
  | unary
  /-- casts it to the type of the column -/
  | scalar
  /-- takes it as a pattern -/
  | pattern
  /-- casts its items to the type of the column -/
  | list
  /-- casts it to a day -/
  | date
deriving DecidableEq

inductive Operand where
  | none
  | value (v : SqlValue)
  | pattern (p : String)
  | list (vs : List SqlValue)

namespace Operand

/-- the operand as one value -/
def toValue : Operand → SqlValue
  | .value v => v
  | .pattern p => .text p
  | .list _ => .null
  | .none => .null

/-- the operand as a pattern -/
def toPattern : Operand → String
  | .pattern p => p
  | .value (.text s) => s
  | .value v => v.toJson.write
  | .list _ => ""
  | .none => ""

/-- the operand as a list -/
def toList : Operand → List SqlValue
  | .list vs => vs
  | .value v => [v]
  | .pattern p => [.text p]
  | .none => []

end Operand

inductive Operator where
  | exact
  | ne
  | gt
  | gte
  | lt
  | lte
  | like
  | ilike
  | notLike
  | startsWith
  | iStartsWith
  | endsWith
  | iEndsWith
  | contains
  | isNull
  | isNotNull
  | oneOf
  | notIn
  | notInOrIsNull
  | any
  | asDate
  | asDateNe
  | asDateGt
  | asDateGe
  | asDateLt
  | asDateLe
deriving DecidableEq

namespace Operator

def token : Operator → String
  | .exact => "exact"
  | .ne => "ne"
  | .gt => "gt"
  | .gte => "gte"
  | .lt => "lt"
  | .lte => "lte"
  | .like => "like"
  | .ilike => "ilike"
  | .notLike => "notlike"
  | .startsWith => "startswith"
  | .iStartsWith => "istartswith"
  | .endsWith => "endswith"
  | .iEndsWith => "iendswith"
  | .contains => "contains"
  | .isNull => "isnull"
  | .isNotNull => "isnotnull"
  | .oneOf => "in"
  | .notIn => "notin"
  | .notInOrIsNull => "notin_or_isnull"
  | .any => "any"
  | .asDate => "asdate"
  | .asDateNe => "asdate_ne"
  | .asDateGt => "asdate_gt"
  | .asDateGe => "asdate_ge"
  | .asDateLt => "asdate_lt"
  | .asDateLe => "asdate_le"

/-- every operator -/
def all : List Operator :=
  [.exact, .ne, .gt, .gte, .lt, .lte, .like, .ilike, .notLike, .startsWith, .iStartsWith, .endsWith,
    .iEndsWith, .contains, .isNull, .isNotNull, .oneOf, .notIn, .notInOrIsNull, .any, .asDate,
    .asDateNe, .asDateGt, .asDateGe, .asDateLt, .asDateLe]

def ofToken? (token : String) : Option Operator := all.find? (·.token = token)

theorem ofToken?_token (op : Operator) : ofToken? op.token = some op := by
  cases op <;> decide +kernel

/-- the operator of a token -/
def ofToken (token : String) : Except Error Operator :=
  match ofToken? token with
  | some op => .ok op
  | none => .error (.unknownOperator token)

def arity : Operator → Arity
  | .isNull | .isNotNull => .unary
  | .exact | .ne | .gt | .gte | .lt | .lte => .scalar
  | .like | .ilike | .notLike | .startsWith | .iStartsWith | .endsWith | .iEndsWith
  | .contains => .pattern
  | .oneOf | .notIn | .notInOrIsNull | .any => .list
  | .asDate | .asDateNe | .asDateGt | .asDateGe | .asDateLt | .asDateLe => .date

/-- the condition that a column stands in this relation to an operand -/
def build (op : Operator) (c : ColumnRef) (x : Operand) : Predicate :=
  let starting := Text.concat [x.toPattern, "%"]
  let ending := Text.concat ["%", x.toPattern]
  let within := Text.concat ["%", x.toPattern, "%"]
  match op with
  | .isNull => .null c false
  | .isNotNull => .null c true
  | .exact => .compare c .eq x.toValue
  | .ne => .compare c .ne x.toValue
  | .gt => .compare c .gt x.toValue
  | .gte => .compare c .ge x.toValue
  | .lt => .compare c .lt x.toValue
  | .lte => .compare c .le x.toValue
  | .like => .like c x.toPattern false false
  | .ilike => .like c x.toPattern true false
  | .notLike => .like c within false true
  | .startsWith => .like c starting false false
  | .iStartsWith => .like c starting true false
  | .endsWith => .like c ending false false
  | .iEndsWith => .like c ending true false
  | .contains => .like c within true false
  | .oneOf => .list c x.toList .oneOf
  | .notIn => .list c x.toList .noneOf
  | .notInOrIsNull => .list c x.toList .noneOfOrNull
  | .any => .list c x.toList .any
  | .asDate => .compareDay c .eq x.toValue
  | .asDateNe => .compareDay c .ne x.toValue
  | .asDateGt => .compareDay c .gt x.toValue
  | .asDateGe => .compareDay c .ge x.toValue
  | .asDateLt => .compareDay c .lt x.toValue
  | .asDateLe => .compareDay c .le x.toValue

end Operator
end EntityAccess
