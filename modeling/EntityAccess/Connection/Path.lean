import EntityAccess.Text.Split

/-!
# paths

A path is a list of segments.  The segment `.` stands for the place where it is and `..` for the one
above, also with points that are written with percent signs; a path that ends in one of them ends in
a slash.  A segment that begins like a drive is never left upwards.

* `resolve_of_plain` : without such segments a path stays as it is.
-/

namespace EntityAccess.Connection.Path

abbrev Segment := List Char

/-- a letter and a colon or a bar, which make a drive, and what follows them -/
def drive? : Segment → Option (Char × Segment)
  | c :: mark :: rest => if c.isAlpha && (mark == ':' || mark == '|') then some (c, rest) else none
  | _ => none

/-- a drive and nothing else -/
def isDrive (s : Segment) : Bool :=
  match drive? s with
  | some (_, []) => true
  | _ => false

/-- a drive, up to the end or to a backslash -/
def startsWithDrive (s : Segment) : Bool :=
  match drive? s with
  | some (_, []) => true
  | some (_, c :: _) => c == '\\'
  | none => false

/-- the points of a segment that are written with percent signs, as points -/
def withPoints : Segment → Segment
  | '%' :: '2' :: e :: rest =>
    if e = 'e' ∨ e = 'E' then '.' :: withPoints rest else '%' :: '2' :: e :: withPoints rest
  | c :: rest => c :: withPoints rest
  | [] => []

/-- where a segment leads -/
inductive Direction where
  | stay
  | up
  | down
deriving DecidableEq

def direction (s : Segment) : Direction :=
  match withPoints s with
  | ['.'] => .stay
  | ['.', '.'] => .up
  | _ => .down

/-- the segments above the last of those that are kept, which come last one first -/
def parent : List Segment → List Segment
  | [] => []
  | s :: above => if startsWithDrive s then s :: above else above

/-- the segments after those that are kept, which come last one first -/
def resolveFrom (kept : List Segment) : List Segment → List Segment
  | [] => kept.reverse
  | s :: rest =>
    let closed (above : List Segment) := if rest = [] then [] :: above else above
    match direction s with
    | .stay => resolveFrom (closed kept) rest
    | .up => resolveFrom (closed (parent kept)) rest
    | .down => resolveFrom (s :: kept) rest

/-- a path without the segments that lead upwards or nowhere -/
def resolve (segments : List Segment) : List Segment := resolveFrom [] segments

theorem resolveFrom_of_plain {segments : List Segment} (h : ∀ s ∈ segments, direction s = .down)
    (kept : List Segment) : resolveFrom kept segments = kept.reverse ++ segments := by
  induction segments generalizing kept with
  | nil => simp [resolveFrom]
  | cons s rest ih =>
    have hs : direction s = .down := h s (by simp)
    simp only [resolveFrom, hs]
    rw [ih (fun t ht => h t (by simp [ht]))]
    simp

theorem resolve_of_plain {segments : List Segment} (h : ∀ s ∈ segments, direction s = .down) :
    resolve segments = segments := by
  simp [resolve, resolveFrom_of_plain h]

/-- the drive at the start of a path to a file is marked by a colon -/
def withDriveColon : List Segment → List Segment
  | s :: rest =>
    match drive? s with
    | some (c, []) => [c, ':'] :: rest
    | _ => s :: rest
  | [] => []

/-- the text of a path without slashes at its start -/
def text (segments : List Segment) : List Char :=
  (List.intercalate ['/'] segments).dropWhile (· == '/')

end EntityAccess.Connection.Path
