import EntityAccess.Proofs.Actions

/-!
# the course of an action

How an action goes, read off the way it is put together: what it asks and how that turns out, the
errors that are raised without a question, and which of all this happens inside a transaction.

* `Course` : the courses of actions against a store;
* `Course.runOn_eq` : the log of a run is its course, written out;
* `Course.isOk_iff` : an action succeeds exactly when nothing in its course fails;
* `Course.committed_iff` : so is a transaction committed;
* `Course.last_of_cause` : a failure is the last thing that happens, and it is what is returned.
-/

namespace EntityAccess

open Program (Store)

/-- one thing that happens -/
inductive Moment where
  /-- a statement, and the failure of it or of its answer -/
  | asked (q : Statement) (failure : Option DatabaseError)
  /-- an error that no statement has brought -/
  | raised (e : Error)

/-- a moment, or a transaction with its moments, that is committed or rolled back -/
inductive Entry where
  | moment (m : Moment)
  | segment (moments : List Moment) (committed : Bool)

/-! ### what happens and what is logged -/

namespace Moment

def events : Moment → List Event
  | .asked q _ => [.executed q]
  | .raised _ => []

/-- the error that a moment brings -/
def cause : Moment → Option Error
  | .asked _ failure => failure.map .database
  | .raised e => some e

end Moment

namespace Entry

def events : Entry → List Event
  | .moment m => m.events
  | .segment ms committed =>
    .marked .begin :: ms.flatMap Moment.events ++
      [.marked (if committed then .commit else .rollback)]

/-- the first error among moments -/
def firstCause (ms : List Moment) : Option Error := ms.findSome? Moment.cause

/-- the error that an entry brings -/
def cause : Entry → Option Error
  | .moment m => m.cause
  | .segment ms _ => firstCause ms

/-- a committed transaction -/
def commits : Entry → Bool
  | .moment _ => false
  | .segment _ committed => committed

theorem cause_moments (ms : List Moment) :
    (ms.map moment).findSome? cause = firstCause ms := by
  rw [List.findSome?_map]
  rfl

theorem events_moments (ms : List Moment) :
    (ms.map moment).flatMap events = ms.flatMap Moment.events := by
  rw [List.flatMap_map]
  rfl

theorem commit_mem_events {entry : Entry} (h : .marked .commit ∈ entry.events) :
    entry.commits = true := by
  cases entry with
  | moment m => cases m <;> simp [events, Moment.events] at h
  | segment ms committed =>
    cases committed with
    | true => rfl
    | false =>
      simp only [events, List.cons_append, List.mem_cons, List.mem_append, List.mem_flatMap] at h
      rcases h with h | ⟨m, _, h⟩ | h
      · simp at h
      · cases m <;> simp [Moment.events] at h
      · simp at h

end Entry

/-! ### courses -/

/-- the error of an outcome -/
def failure? {α : Type} : Except Error α → Option Error
  | .ok _ => none
  | .error e => some e

/-- the courses of actions against a store, with the outcome and the store after it -/
inductive Course {σ : Type} (store : Store σ) :
    {α : Type} → Action α → σ → List Entry → Except Error α → σ → Prop where
  | value {α : Type} (a : α) (s : σ) : Course store (pure a : Action α) s [] (.ok a) s
  | raise {α : Type} (e : Error) (s : σ) :
    Course store (liftM (.error e : Except Error α) : Action α) s [.moment (.raised e)] (.error e) s
  | fresh (s : σ) : Course store Action.fresh s [] (.ok (store.fresh s).1) (store.fresh s).2
  | answered {α : Type} {q : Statement} {read : ResultSet → Except DatabaseError α} {s : σ} {a : α}
    (h : (store.reply q s).1.bind read = .ok a) :
    Course store (Action.query q read) s [.moment (.asked q none)] (.ok a) (store.reply q s).2
  | failed {α : Type} {q : Statement} {read : ResultSet → Except DatabaseError α} {s : σ}
    {e : DatabaseError} (h : (store.reply q s).1.bind read = .error e) :
    Course store (Action.query q read) s [.moment (.asked q (some e))] (.error (.database e))
      (store.reply q s).2
  | bindOk {α β : Type} {x : Action α} {f : α → Action β} {s s' s'' : σ} {first rest : List Entry}
    {a : α} {result : Except Error β} (hx : Course store x s first (.ok a) s')
    (hf : Course store (f a) s' rest result s'') :
    Course store (x >>= f) s (first ++ rest) result s''
  | bindError {α β : Type} {x : Action α} {f : α → Action β} {s s' : σ} {first : List Entry}
    {e : Error} (hx : Course store x s first (.error e) s') :
    Course store (x >>= f) s first (.error e) s'
  | transaction {α : Type} {body : Action α} {s s' : σ} {moments : List Moment}
    {result : Except Error α} (hbody : Course store body s (moments.map .moment) result s') :
    Course store (Action.transaction body) s [.segment moments result.isOk] result s'

namespace Course

variable {σ α : Type} {store : Store σ} {x : Action α} {s s' : σ} {entries : List Entry}
  {result : Except Error α}

/-- the log of a run is its course -/
theorem runOn_eq (h : Course store x s entries result s') :
    x.runOn store s = (result, entries.flatMap Entry.events, s') := by
  induction h with
  | value a s => rfl
  | raise e s => rfl
  | fresh s => rfl
  | answered h =>
    rw [Action.runOn_query]
    unfold Action.ofReply
    rw [h]
    rfl
  | failed h =>
    rw [Action.runOn_query]
    unfold Action.ofReply
    rw [h]
    rfl
  | @bindOk _ _ x f _ _ _ _ _ _ _ _ _ ihx ihf =>
    rw [Action.runOn_bind_ok f ihx, ihf, List.flatMap_append]
  | @bindError _ _ x f _ _ _ _ _ ihx => rw [Action.runOn_bind_error f ihx]
  | @transaction _ body s s' ms result _ ih =>
    rw [Entry.events_moments] at ih
    cases result with
    | ok a =>
      rw [Action.run_transaction_ok ih]
      simp [Entry.events, Except.isOk, Except.toBool]
    | error e =>
      rw [Action.run_transaction_error ih]
      simp [Entry.events, Except.isOk, Except.toBool]

/-- the outcome is the first error of the course, if there is any -/
theorem findSome?_cause (h : Course store x s entries result s') :
    entries.findSome? Entry.cause = failure? result := by
  induction h with
  | value a s => rfl
  | raise e s => rfl
  | fresh s => rfl
  | answered h => rfl
  | failed h => rfl
  | bindOk _ _ ihx ihf => rw [List.findSome?_append, ihx, ihf]; rfl
  | bindError _ ihx => exact ihx
  | @transaction _ _ _ _ ms result _ ih =>
    rw [Entry.cause_moments] at ih
    rw [← ih]
    cases hc : Entry.firstCause ms <;> simp [Entry.cause, hc]

/-- an action succeeds exactly when nothing in its course fails -/
theorem isOk_iff (h : Course store x s entries result s') :
    result.isOk = true ↔ ∀ entry ∈ entries, entry.cause = none := by
  rw [← List.findSome?_eq_none_iff, h.findSome?_cause]
  cases result <;> simp [failure?, Except.isOk, Except.toBool]

/-- a transaction is committed exactly when nothing in it fails -/
theorem committed_iff (h : Course store x s entries result s') {ms : List Moment}
    {committed : Bool} (hmem : .segment ms committed ∈ entries) :
    committed = true ↔ ∀ m ∈ ms, m.cause = none := by
  induction h with
  | value a s => simp at hmem
  | raise e s => simp at hmem
  | fresh s => simp at hmem
  | answered h => simp at hmem
  | failed h => simp at hmem
  | bindOk _ _ ihx ihf =>
    rcases List.mem_append.1 hmem with hmem | hmem
    · exact ihx hmem
    · exact ihf hmem
  | bindError _ ihx => exact ihx hmem
  | @transaction _ _ _ _ moments result hbody _ =>
    obtain ⟨rfl, rfl⟩ : ms = moments ∧ committed = result.isOk := by simpa using hmem
    rw [hbody.isOk_iff]
    simp [Entry.cause]

/-- nothing happens after a failure -/
theorem cause_of_mem_dropLast (h : Course store x s entries result s') :
    ∀ entry ∈ entries.dropLast, entry.cause = none := by
  induction h with
  | value a s => simp
  | raise e s => simp
  | fresh s => simp
  | answered h => simp
  | failed h => simp
  | @bindOk _ _ _ _ _ _ _ first rest _ _ hx _ ihx ihf =>
    cases rest with
    | nil => simpa using ihx
    | cons entry rest =>
      rw [List.dropLast_append_cons]
      intro b hb
      rcases List.mem_append.1 hb with hb | hb
      · exact hx.isOk_iff.1 rfl b hb
      · exact ihf b hb
  | bindError _ ihx => exact ihx
  | transaction _ _ => simp

/-- a failure is the last thing that happens, and it is what is returned -/
theorem last_of_cause (h : Course store x s entries result s') {before after : List Entry}
    {entry : Entry} {e : Error} (hentries : entries = before ++ entry :: after)
    (hcause : entry.cause = some e) : after = [] ∧ result = .error e := by
  have hclean := h.cause_of_mem_dropLast
  rw [hentries, List.dropLast_append_cons] at hclean
  have hafter : after = [] := by
    cases after with
    | nil => rfl
    | cons next after =>
      rw [List.dropLast_cons_of_ne_nil (List.cons_ne_nil next after)] at hclean
      have hno := hclean entry (List.mem_append_right before List.mem_cons_self)
      rw [hcause] at hno
      simp at hno
  subst hafter
  have hbefore : before.findSome? Entry.cause = none := by
    rw [List.findSome?_eq_none_iff]
    exact fun b hb => hclean b (List.mem_append_left _ hb)
  have hfirst := h.findSome?_cause
  rw [hentries, List.findSome?_append, hbefore, Option.none_or, List.findSome?_cons,
    hcause] at hfirst
  refine ⟨rfl, ?_⟩
  cases result with
  | ok a => simp [failure?] at hfirst
  | error e' => simpa [failure?, eq_comm] using hfirst

/-- what is returned as an error has happened last -/
theorem exists_last (h : Course store x s entries result s') {e : Error} (he : result = .error e) :
    ∃ before entry, entries = before ++ [entry] ∧ entry.cause = some e := by
  have hfirst := h.findSome?_cause
  rw [he] at hfirst
  obtain ⟨before, entry, after, hentries, hcause, _⟩ := List.findSome?_eq_some_iff.1 hfirst
  obtain ⟨rfl, _⟩ := h.last_of_cause hentries hcause
  exact ⟨before, entry, hentries, hcause⟩

end Course
end EntityAccess
