import EntityAccess.Error

/-!
# rows in batches, by key

Rows are fetched in batches in the order of their keys, each batch after the last key of the one
before.  At most one batch is held.  An iteration ends at an empty batch, or when the last key of a
batch has been one already.

* `step_of_buffer` : what is held is yielded first;
* `next_of_fetch` : when a batch is fetched, and after which key.
-/

namespace EntityAccess

/-- an iteration over rows in batches -/
structure Chunks (α : Type) where
  batchSize : Nat
  /-- rows fetched and not yet yielded -/
  buffer : List α
  /-- the last key of the last batch -/
  boundary : Option String
  /-- the boundaries after which a batch has been asked for -/
  seen : List String
  exhausted : Bool
  /-- how many batches have come -/
  issued : Nat

namespace Chunks

variable {α : Type}

/-- the iteration at its beginning; a batch holds at least one row -/
def start (batchSize : Nat) : Chunks α := ⟨max batchSize 1, [], none, [], false, 0⟩

/-- what has to be done for the next row -/
inductive Step (α : Type) where
  | yield (row : α) (after : Chunks α)
  | finished (after : Chunks α)
  | fetch (after : Chunks α)

def step (c : Chunks α) : Step α :=
  match c.buffer with
  | row :: rest => .yield row { c with buffer := rest }
  | [] =>
    if c.exhausted then .finished c
    else match c.boundary with
      | none => .fetch c
      | some key =>
        if c.seen.contains key then .finished { c with exhausted := true }
        else .fetch { c with seen := key :: c.seen }

/-- the first row of a batch that has come, and the iteration after it -/
def receive (key : α → String) (c : Chunks α) : List α → Option α × Chunks α
  | [] => (none, { c with issued := c.issued + 1, exhausted := true })
  | row :: rest =>
    (some row, { c with
      issued := c.issued + 1
      buffer := rest
      boundary := some (key ((row :: rest).getLast (List.cons_ne_nil _ _))) })

/-- a source of batches: the rows after a key, at most so many -/
abbrev Source (m : Type → Type) (α : Type) := Option String → Nat → m (Except Error (List α))

/-- the next row, none at the end -/
def next {m : Type → Type} [Monad m] (key : α → String) (fetch : Source m α) (c : Chunks α) :
    m (Except Error (Option α) × Chunks α) :=
  match c.step with
  | .yield row after => pure (.ok (some row), after)
  | .finished after => pure (.ok none, after)
  | .fetch after => do
    match ← fetch after.boundary after.batchSize with
    | .error e => pure (.error e, after)
    | .ok batch =>
      let (row, after) := after.receive key batch
      pure (.ok row, after)

/-- all rows up to the end or the first error, and the iteration after that; at most `limit` rows
are asked for, and nothing is returned if that is too few -/
def drain {m : Type → Type} [Monad m] (key : α → String) (fetch : Source m α) :
    (limit : Nat) → Chunks α → m (Option (List α × Option Error × Chunks α))
  | 0, _ => pure none
  | limit + 1, c => do
    match ← c.next key fetch with
    | (.error e, after) => pure (some ([], some e, after))
    | (.ok none, after) => pure (some ([], none, after))
    | (.ok (some row), after) =>
      return (← drain key fetch limit after).map fun (rows, fault) => (row :: rows, fault)

theorem step_of_buffer (c : Chunks α) {row : α} {rest : List α} (h : c.buffer = row :: rest) :
    c.step = .yield row { c with buffer := rest } := by
  simp [step, h]

theorem next_of_fetch {m : Type → Type} [Monad m] (key : α → String) (fetch : Source m α)
    {c after : Chunks α} (h : c.step = .fetch after) :
    c.next key fetch = (do
      match ← fetch after.boundary after.batchSize with
      | .error e => pure (.error e, after)
      | .ok batch => pure (.ok (after.receive key batch).1, (after.receive key batch).2)) := by
  simp [next, h]

end Chunks
end EntityAccess
