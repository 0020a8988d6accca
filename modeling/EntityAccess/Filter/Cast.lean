import EntityAccess.Schema.Document
import EntityAccess.Sql.Value
import EntityAccess.Text.Split

/-!
# JSON values as column values

A value is cast to the type of its column, in a filter or in a payload to be written; the two differ
only in the date-times they read.  Null is null of every type, and a json column takes anything.
-/

namespace EntityAccess

open Calendar

/-! ### date-times -/

def filterDateTimePatterns : List (List Item) := [datePattern ++ .blanks :: minutePattern]

def writeDateTimePatterns : List (List Item) :=
  [datePattern ++ .literal 'T' :: secondPattern,
    datePattern ++ .blanks :: secondPattern,
    datePattern ++ .literal 'T' :: minutePattern,
    datePattern ++ .blanks :: minutePattern]

/-- a date-time in a filter: to the minute, or a date -/
def readFilterDateTime (s : String) : Option DateTime :=
  readDateTime filterDateTimePatterns s <|> (readDate s).map .ofDate

/-- a date-time in a payload: also with seconds, or with a zone -/
def readWriteDateTime (s : String) : Option DateTime :=
  readDateTime writeDateTimePatterns s <|> readMoment s <|> (readDate s).map .ofDate

/-- a date in a payload: also that of a date-time -/
def readWriteDate (s : String) : Option Date :=
  readDate s <|> (readWriteDateTime s).map (·.date)

/-! ### casts -/

def unexpected (kind : ValueKind) (v : Json) : Except Error SqlValue :=
  .error (.badRequest (.unexpectedValue kind v))

/-- the value, or the complaint that something else was expected -/
def expect (kind : ValueKind) (v : Json) : Option SqlValue → Except Error SqlValue
  | some x => .ok x
  | none => unexpected kind v

def castText : Json → Except Error SqlValue
  | .str s => .ok (.text s)
  | .bool b => .ok (.text (Json.bool b).write)
  | .int n => .ok (.text (Json.int n).write)
  | .float x => .ok (.text (Json.float x).write)
  | v => unexpected .text v

def castInteger (v : Json) : Except Error SqlValue :=
  expect .integer v <| match v with
    | .int n => if Number.isSigned64 n then some (.int n) else none
    | .str s => (Number.readInt (Text.trim s).toList).map .int
    | _ => none

def castFloat (v : Json) : Except Error SqlValue :=
  expect .float v <| match v with
    | .int n => some (.float (.ofInt n))
    | .float x => some (.float (.finite x))
    | .str s => (Number.readDouble (Text.trim s).toList).map .float
    | _ => none

/-- a word for a truth value, in any case and with white space around it -/
def readTruth (s : String) : Option Bool :=
  let word := Text.lowerAscii (Text.trim s)
  if word = "true" ∨ word = "1" then some true
  else if word = "false" ∨ word = "0" then some false
  else none

def castBoolean (v : Json) : Except Error SqlValue :=
  expect .boolean v <| match v with
    | .bool b => some (.bool b)
    | .str s => (readTruth s).map .bool
    | _ => none

/-- a date or date-time by a reader of texts -/
def castTime (kind : ValueKind) (read : String → Option SqlValue) : Json → Except Error SqlValue
  | .str s =>
    match read s with
    | some x => .ok x
    | none => .error (.invalidDateFormat s)
  | v => unexpected kind v

/-- a value that is not null, with readers for date and date-time texts -/
def castWith (readDate : String → Option Date) (readDateTime : String → Option DateTime)
    (type : ColumnType) (v : Json) : Except Error SqlValue :=
  match type with
  | .text => castText v
  | .integer => castInteger v
  | .float => castFloat v
  | .boolean => castBoolean v
  | .date => castTime .date (fun s => (readDate s).map .date) v
  | .dateTime => castTime .dateTime (fun s => (readDateTime s).map .dateTime) v
  | .json => .ok (.json v)
  | .searchVector => .error (.badRequest .vectorCompared)

/-- a value to compare a column with -/
def castFilter (type : ColumnType) (v : Json) : Except Error SqlValue :=
  if v.isNull then .ok .null else castWith readDate readFilterDateTime type v

/-- a value to write into a column -/
def castWrite (type : ColumnType) (v : Json) : Except Error SqlValue :=
  if v.isNull then .ok .null else castWith readWriteDate readWriteDateTime type v

/-- a day to compare the day of a column with -/
def castDay : Json → Except Error SqlValue
  | .str s =>
    match readFilterDateTime s with
    | some t => .ok (.date t.date)
    | none => .error (.invalidDateFormat s)
  | v => .error (.invalidDateFormat v.write)

/-- the items of a list operand: those of an array, those between commas, or the value alone -/
def listItems : Json → List Json
  | .arr items => items
  | .str s => (Text.commaItems s).map .str
  | v => [v]

end EntityAccess
