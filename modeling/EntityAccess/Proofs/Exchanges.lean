import EntityAccess.Proofs.Actions
import EntityAccess.Proofs.Chunks.Calls

/-!
# statements with their answers

The log of a run has its statements, but not what they were answered.  The exchanges of a run have
both, in the order of the log.  Those of an iteration are the exchanges of its fetches, one fetch
after the other.

* `Program.exchanges`, `exchanges_bind` : statements and answers, part by part;
* `map_exchanges` : the statements are those of the log;
* `Action.exchangesOn` : the same for actions, which can fail;
* `Chunks.Source.on` : a program as a source with the state of a store;
* `Chunks.calls`, `run_calls` : a program of so many calls;
* `exchanges_calls` : what it asks.
-/

namespace EntityAccess

variable {α β σ : Type}

/-- the statement that is executed -/
def Event.statement? : Event → Option Statement
  | .executed q => some q
  | .marked _ => none

namespace Program

/-- the statements of a run, each with its answer -/
def exchanges (store : Store σ) : Program α → σ → List (Statement × Reply)
  | .done _, _ => []
  | .ask q next, s =>
    (q, (store.reply q s).1) :: (next (store.reply q s).1).exchanges store (store.reply q s).2
  | .tell _ next, s => next.exchanges store s
  | .fresh next, s => (next (store.fresh s).1).exchanges store (store.fresh s).2

theorem exchanges_pure (store : Store σ) (a : α) (s : σ) :
    (pure a : Program α).exchanges store s = [] := rfl

theorem exchanges_bind (store : Store σ) (p : Program α) (f : α → Program β) (s : σ) :
    (p >>= f).exchanges store s =
      p.exchanges store s ++ (f (p.run store s).1).exchanges store (p.run store s).2.2 := by
  change (p.bind f).exchanges store s = _
  induction p generalizing s with
  | done a => rfl
  | ask q next ih => exact congrArg (_ :: ·) (ih _ _)
  | tell m next ih => exact ih s
  | fresh next ih => exact ih _ _

theorem map_exchanges (store : Store σ) (p : Program α) (s : σ) :
    (p.exchanges store s).map Prod.fst = (p.run store s).2.1.filterMap Event.statement? := by
  induction p generalizing s with
  | done a => rfl
  | ask q next ih => exact congrArg (q :: ·) (ih _ _)
  | tell m next ih => exact ih s
  | fresh next ih => exact ih _ _

end Program

/-! ### actions -/

namespace Action

open Program (Store)

variable {store : Store σ} {s s' : σ} {x : Action α} {a : α} {log : List Event}

def exchangesOn (x : Action α) (store : Store σ) (s : σ) : List (Statement × Reply) :=
  x.run.exchanges store s

theorem exchangesOn_query (q : Statement) (read : ResultSet → Except DatabaseError α) :
    (query q read).exchangesOn store s = [(q, (store.reply q s).1)] := rfl

theorem exchangesOn_bind_ok (f : α → Action β) (h : x.runOn store s = (.ok a, log, s')) :
    (x >>= f).exchangesOn store s = x.exchangesOn store s ++ (f a).exchangesOn store s' := by
  unfold runOn at h
  unfold exchangesOn
  rw [ExceptT.run_bind, Program.exchanges_bind, h]

theorem exchangesOn_bind_error (f : α → Action β) {e : Error}
    (h : x.runOn store s = (.error e, log, s')) :
    (x >>= f).exchangesOn store s = x.exchangesOn store s := by
  unfold runOn at h
  unfold exchangesOn
  rw [ExceptT.run_bind, Program.exchanges_bind, h]
  exact List.append_nil _

theorem mem_exchangesOn_bind_of_first (f : α → Action β) {asked : Statement × Reply}
    (h : asked ∈ x.exchangesOn store s) : asked ∈ (x >>= f).exchangesOn store s := by
  rcases hx : x.runOn store s with ⟨e | a, log, s'⟩
  · rw [exchangesOn_bind_error f hx]
    exact h
  · rw [exchangesOn_bind_ok f hx]
    exact List.mem_append_left _ h

theorem runOn_query_ok {q : Statement} {read : ResultSet → Except DatabaseError α} {rs : ResultSet}
    (hreply : (store.reply q s).1 = .ok rs) (hread : read rs = .ok a) :
    (query q read).runOn store s = (.ok a, [.executed q], (store.reply q s).2) := by
  have hof : ofReply read (.ok rs) = .ok a := by
    show (read rs).mapError Error.database = .ok a
    rw [hread]
    rfl
  rw [runOn_query, hreply, hof]

end Action

/-! ### iterations -/

namespace Chunks

open Program (Store)

/-- a program as a source whose state is that of a store -/
def Source.on (fetch : Source Program α) (store : Store σ) : Source (StateM σ) α :=
  fun after limit s =>
    (((fetch after limit).run store s).1, ((fetch after limit).run store s).2.2)

/-- so many calls one after the other: what each returns, and the iteration after them -/
def calls {m : Type → Type} [Monad m] (key : α → String) (fetch : Source m α) :
    Nat → Chunks α → m (List (Except Error (Option α)) × Chunks α)
  | 0, c => pure ([], c)
  | n + 1, c => do
    let (results, c) ← calls key fetch n c
    let (result, c) ← c.next key fetch
    return (results ++ [result], c)

variable (key : α → String) (fetch : Source Program α) (store : Store σ)

/-- a call on the store is one of the run -/
theorem run_next (r : Run σ α) :
    ((r.chunks.next key fetch).run store r.source).1 =
        ((r.call key (fetch.on store)).1, (r.call key (fetch.on store)).2.chunks) ∧
      ((r.chunks.next key fetch).run store r.source).2.2 =
        (r.call key (fetch.on store)).2.source := by
  have hstate := Run.next_run key (fetch.on store) r
  cases hstep : r.chunks.step with
  | yield row c =>
    simp only [next, hstep] at hstate ⊢
    exact ⟨congrArg Prod.fst hstate, congrArg Prod.snd hstate⟩
  | finished c =>
    simp only [next, hstep] at hstate ⊢
    exact ⟨congrArg Prod.fst hstate, congrArg Prod.snd hstate⟩
  | fetch c =>
    rw [next_of_fetch key _ hstep] at hstate ⊢
    have hfetch : (fetch.on store c.boundary c.batchSize).run r.source =
        (((fetch c.boundary c.batchSize).run store r.source).1,
          ((fetch c.boundary c.batchSize).run store r.source).2.2) := rfl
    rw [StateT.run_bind, hfetch] at hstate
    rw [Program.run_bind]
    cases hanswer : ((fetch c.boundary c.batchSize).run store r.source).1 <;>
      rw [hanswer] at hstate <;>
      exact ⟨congrArg Prod.fst hstate, congrArg Prod.snd hstate⟩

/-- a fetch on the store, and what it asks -/
def FetchAsks (fetch : Source Program α) (store : Store σ) (asked : List (Statement × Reply))
    (f : Fetch α) : Prop :=
  ∃ s, f.answer = ((fetch f.after f.limit).run store s).1 ∧
    asked = (fetch f.after f.limit).exchanges store s

/-- a call asks nothing, or what its fetch asks -/
theorem exchanges_next (r : Run σ α) :
    ∃ asked fetched, List.Forall₂ (FetchAsks fetch store) asked fetched ∧
      (r.chunks.next key fetch).exchanges store r.source = asked.flatten ∧
      (r.call key (fetch.on store)).2.fetches = r.fetches ++ fetched := by
  -- a row is held, the iteration is over, or there is a fetch
  obtain ⟨row, rest, hb, hcall⟩ | ⟨hb, ho, hcall⟩ | ⟨hb, ho, answer, source, hf, hcall⟩ :=
    Run.call_cases key (fetch.on store) r
  · refine ⟨[], [], .nil, ?_, ?_⟩
    · simp only [next, step_of_buffer _ hb]
      rfl
    · rw [hcall, List.append_nil]
  · refine ⟨[], [], .nil, ?_, ?_⟩
    · simp only [next, step_of_over hb ho]
      rfl
    · rw [hcall, List.append_nil]
  · have hanswer : answer =
        ((fetch r.chunks.boundary r.chunks.batchSize).run store r.source).1 :=
      (congrArg Prod.fst hf).symm
    refine ⟨[(fetch r.chunks.boundary r.chunks.batchSize).exchanges store r.source],
      [⟨r.chunks.boundary, r.chunks.batchSize, answer⟩],
      .cons ⟨r.source, hanswer, rfl⟩ .nil, ?_, ?_⟩
    · rw [next_of_fetch key _ (step_of_not_over hb ho), Program.exchanges_bind, List.flatten_cons,
        List.flatten_nil]
      congr 1
      cases ((fetch _ _).run store r.source).1 <;> rfl
    · rw [hcall]
      cases answer <;> rfl

/-- so many calls on a store are the run after them -/
theorem run_calls (batchSize : Nat) (s : σ) (n : Nat) :
    let run := (Run.start batchSize s).after key (fetch.on store) n
    let calls := (calls key fetch n (.start batchSize)).run store s
    calls.1 = ((List.range n).map ((Run.start batchSize s).result key (fetch.on store)),
        run.chunks) ∧ calls.2.2 = run.source := by
  induction n with
  | zero => exact ⟨rfl, rfl⟩
  | succ n ih =>
    obtain ⟨hvalue, hsource⟩ := ih
    obtain ⟨hnext, hafter⟩ := run_next key fetch store
      ((Run.start batchSize s).after key (fetch.on store) n)
    dsimp only at hvalue hsource ⊢
    unfold calls
    rw [Program.run_bind, hvalue, hsource, Program.run_bind, hnext, hafter, Program.run_pure,
      List.range_succ, List.map_append]
    exact ⟨rfl, rfl⟩

/-- they ask what the fetches of the run ask, one after the other -/
theorem exchanges_calls (batchSize : Nat) (s : σ) (n : Nat) :
    ∃ asked, (calls key fetch n (.start batchSize)).exchanges store s = asked.flatten ∧
      List.Forall₂ (FetchAsks fetch store) asked
        ((Run.start batchSize s).after key (fetch.on store) n).fetches := by
  induction n with
  | zero => exact ⟨[], rfl, .nil⟩
  | succ n ih =>
    obtain ⟨asked, hasked, hfetches⟩ := ih
    obtain ⟨hvalue, hsource⟩ := run_calls key fetch store batchSize s n
    obtain ⟨more, fetched, hmore, hnext, hafter⟩ := exchanges_next key fetch store
      ((Run.start batchSize s).after key (fetch.on store) n)
    refine ⟨asked ++ more, ?_, ?_⟩
    · unfold calls
      rw [Program.exchanges_bind, hasked, hvalue, hsource, Program.exchanges_bind, hnext,
        Program.exchanges_pure, List.append_nil, List.flatten_append]
    · rw [Run.after, hafter]
      exact List.rel_append hfetches hmore

end Chunks
end EntityAccess
