import EntityAccess.Sql.Result
import EntityAccess.Sql.Statement

/-!
# programs that use a database

A program is what it will do: ask the database something and go on with the answer, mark where a
transaction begins and ends, take a new identifier, or stop with a value.  Running it against a
store gives the value and the log of everything that was done, in order.

* `run_bind` : the log of one program after another is the log of the first and then of the second;
* `run_transaction_ok`, `run_transaction_error` : how a transaction ends.
-/

namespace EntityAccess

/-- what is logged beside statements -/
inductive Mark where
  | begin
  | commit
  | rollback
  /-- a hook's own entry -/
  | remark (v : Json)

inductive Event where
  | executed (s : Statement)
  | marked (m : Mark)

inductive Program (α : Type) where
  | done (a : α)
  | ask (s : Statement) (next : Reply → Program α)
  | tell (m : Mark) (next : Program α)
  /-- takes an identifier that is not in use -/
  | fresh (next : String → Program α)

namespace Program

variable {α β σ : Type}

def bind : Program α → (α → Program β) → Program β
  | .done a, f => f a
  | .ask s next, f => .ask s fun r => (next r).bind f
  | .tell m next, f => .tell m (next.bind f)
  | .fresh next, f => .fresh fun id => (next id).bind f

instance : Monad Program where
  pure := .done
  bind := bind

/-- what answers statements and knows identifiers that are not in use -/
structure Store (σ : Type) where
  reply : Statement → σ → Reply × σ
  fresh : σ → String × σ

/-- the value of a program, its log and the store after it -/
def run (store : Store σ) : Program α → σ → α × List Event × σ
  | .done a, s => (a, [], s)
  | .ask q next, s =>
    let (r, s) := store.reply q s
    let (a, log, s) := (next r).run store s
    (a, .executed q :: log, s)
  | .tell m next, s =>
    let (a, log, s) := next.run store s
    (a, .marked m :: log, s)
  | .fresh next, s =>
    let (id, s) := store.fresh s
    (next id).run store s

theorem run_pure (store : Store σ) (a : α) (s : σ) :
    (pure a : Program α).run store s = (a, [], s) := rfl

theorem run_bind (store : Store σ) (p : Program α) (f : α → Program β) (s : σ) :
    (p >>= f).run store s =
      ((f (p.run store s).1).run store (p.run store s).2.2 |>.1,
        (p.run store s).2.1 ++ ((f (p.run store s).1).run store (p.run store s).2.2).2.1,
        ((f (p.run store s).1).run store (p.run store s).2.2).2.2) := by
  change (p.bind f).run store s = _
  induction p generalizing s with
  | done a => simp [bind, run]
  | ask q next ih => simp [bind, run, ih]
  | tell m next ih => simp [bind, run, ih]
  | fresh next ih => simp [bind, run, ih]

end Program

/-! ### actions -/

/-- a program that can fail -/
abbrev Action := ExceptT Error Program

namespace Action

/-- an answer, read or failed -/
def ofReply {α : Type} (read : ResultSet → Except DatabaseError α) (r : Reply) :
    Except Error α :=
  (r.bind read).mapError .database

/-- asks the database something and reads its answer -/
def query {α : Type} (s : Statement) (read : ResultSet → Except DatabaseError α) : Action α :=
  .mk (.ask s fun r => .done (ofReply read r))

/-- executes a statement whose rows do not matter -/
def execute (s : Statement) : Action Unit := query s fun _ => .ok ()

def tell (m : Mark) : Action Unit := .mk (.tell m (.done (.ok ())))

/-- an identifier that is not in use -/
def fresh : Action String := .mk (.fresh fun id => .done (.ok id))

/-- an action in a transaction, which is committed unless the action fails.  `begin`, `commit` and
`rollback` are marks in the log and nothing else: a store does not answer them, so that beginning,
committing and rolling back never fail here -/
def transaction {α : Type} (action : Action α) : Action α := .mk do
  .tell .begin (.done ())
  match ← action.run with
  | .ok a =>
    .tell .commit (.done ())
    return .ok a
  | .error e =>
    .tell .rollback (.done ())
    return .error e

/-- the outcome of an action, its log and the store after it -/
def runOn {α σ : Type} (action : Action α) (store : Program.Store σ) (s : σ) :
    Except Error α × List Event × σ :=
  action.run.run store s

theorem run_transaction_ok {α σ : Type} {action : Action α} {store : Program.Store σ} {s s' : σ}
    {a : α} {log : List Event} (h : action.runOn store s = (.ok a, log, s')) :
    (transaction action).runOn store s =
      (.ok a, .marked .begin :: log ++ [.marked .commit], s') := by
  simp only [runOn] at h ⊢
  simp only [transaction, ExceptT.run_mk, Program.run_bind, Program.run, h]
  simp [Program.run_pure]

theorem run_transaction_error {α σ : Type} {action : Action α} {store : Program.Store σ}
    {s s' : σ} {e : Error} {log : List Event} (h : action.runOn store s = (.error e, log, s')) :
    (transaction action).runOn store s =
      (.error e, .marked .begin :: log ++ [.marked .rollback], s') := by
  simp only [runOn] at h ⊢
  simp only [transaction, ExceptT.run_mk, Program.run_bind, Program.run, h]
  simp [Program.run_pure]

end Action
end EntityAccess
