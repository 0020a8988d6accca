import EntityAccess.Chunks
import Mathlib.Data.List.Nodup

/-!
# calls of an iteration

An iteration is called again and again, whatever its calls return, on a source that has a state of
its own and answers as it likes.  Every fetch is logged: after which key it was made, how many rows
were asked for, and what came.

* `Run`, `Run.after`, `Run.result` : where a run is after so many calls, and what a call returns;
* `call_of_buffer`, `call_of_over`, `call_of_fetch` : everything that a call can do;
* `drain_eq` : the rows that calls return one by one, all at once;
* `Traced` : what the log says about the state, kept by every call (`traced_after`);
* `Accounted` : what the source has given, and how much of it is held (`accounted_after`);
* `over_forever` : an iteration that is over stays so, without a fetch.
-/

namespace EntityAccess.Chunks

variable {σ α : Type}

/-- what was asked of a source, and its answer -/
structure Fetch (α : Type) where
  after : Option String
  limit : Nat
  answer : Except Error (List α)

/-- a source that logs what is asked of it -/
def logged (fetch : Source (StateM σ) α) : Source (StateM (σ × List (Fetch α))) α :=
  fun after limit => do
    let (s, log) ← get
    let (answer, s) := (fetch after limit).run s
    set (s, log ++ [⟨after, limit, answer⟩])
    return answer

/-- an iteration with its source and the fetches so far -/
structure Run (σ α : Type) where
  chunks : Chunks α
  source : σ
  fetches : List (Fetch α)

namespace Run

/-- one call: its result, and the run after it -/
def call (key : α → String) (fetch : Source (StateM σ) α) (r : Run σ α) :
    Except Error (Option α) × Run σ α :=
  let ((result, chunks), source, fetches) :=
    (r.chunks.next key (logged fetch)).run (r.source, r.fetches)
  (result, ⟨chunks, source, fetches⟩)

/-- the run after so many calls -/
def after (key : α → String) (fetch : Source (StateM σ) α) (r : Run σ α) : Nat → Run σ α
  | 0 => r
  | n + 1 => ((r.after key fetch n).call key fetch).2

/-- what a call returns, the first call being number 0 -/
def result (key : α → String) (fetch : Source (StateM σ) α) (r : Run σ α) (n : Nat) :
    Except Error (Option α) :=
  ((r.after key fetch n).call key fetch).1

/-- a run before its first call -/
def start (batchSize : Nat) (s : σ) : Run σ α := ⟨.start batchSize, s, []⟩

end Run

/-- no batch is asked for any more: the last one was empty, or the last key has been asked after -/
def isOver (c : Chunks α) : Bool := c.exhausted || c.boundary.any c.seen.contains

/-- the iteration while it waits for a batch: the last key is one that was asked after -/
def asking (c : Chunks α) : Chunks α := { c with seen := c.boundary.toList ++ c.seen }

theorem step_of_over {c : Chunks α} (hb : c.buffer = []) (h : c.isOver = true) :
    c.step = .finished { c with exhausted := true } := by
  obtain ⟨batchSize, buffer, boundary, seen, exhausted, issued⟩ := c
  obtain rfl : buffer = [] := hb
  cases exhausted with
  | true => rfl
  | false =>
    cases boundary with
    | none => simp [isOver] at h
    | some k =>
      have hk : seen.contains k = true := by simpa [isOver] using h
      simp only [step, hk]
      rfl

theorem step_of_not_over {c : Chunks α} (hb : c.buffer = []) (h : c.isOver = false) :
    c.step = .fetch c.asking := by
  obtain ⟨batchSize, buffer, boundary, seen, exhausted, issued⟩ := c
  obtain rfl : buffer = [] := hb
  obtain ⟨rfl, hseen⟩ : exhausted = false ∧ boundary.any seen.contains = false := by
    simpa [isOver] using h
  cases boundary with
  | none => rfl
  | some k =>
    have hk : seen.contains k = false := by simpa using hseen
    simp only [step, hk]
    rfl

namespace Run

variable {key : α → String} {fetch : Source (StateM σ) α} {r : Run σ α}

/-! ### everything that a call can do -/

/-- a row that is held is the result, and nothing is fetched -/
theorem call_of_buffer {row : α} {rest : List α} (h : r.chunks.buffer = row :: rest) :
    r.call key fetch =
      (.ok (some row), ⟨{ r.chunks with buffer := rest }, r.source, r.fetches⟩) := by
  simp only [call, next, step_of_buffer r.chunks h]
  rfl

/-- an iteration that is over returns nothing, and nothing is fetched -/
theorem call_of_over (hb : r.chunks.buffer = []) (h : r.chunks.isOver = true) :
    r.call key fetch =
      (.ok none, ⟨{ r.chunks with exhausted := true }, r.source, r.fetches⟩) := by
  simp only [call, next, step_of_over hb h]
  rfl

/-- what a call makes of an answer to its fetch -/
def answered (key : α → String) (r : Run σ α) (source : σ) :
    Except Error (List α) → Except Error (Option α) × Run σ α
  | .error e =>
    (.error e, ⟨r.chunks.asking, source,
      r.fetches ++ [⟨r.chunks.boundary, r.chunks.batchSize, .error e⟩]⟩)
  | .ok batch =>
    (.ok (r.chunks.asking.receive key batch).1, ⟨(r.chunks.asking.receive key batch).2, source,
      r.fetches ++ [⟨r.chunks.boundary, r.chunks.batchSize, .ok batch⟩]⟩)

/-- otherwise the rows after the last key are fetched, as many as a batch holds -/
theorem call_of_fetch (hb : r.chunks.buffer = []) (h : r.chunks.isOver = false)
    {answer : Except Error (List α)} {source : σ}
    (hf : (fetch r.chunks.boundary r.chunks.batchSize).run r.source = (answer, source)) :
    r.call key fetch = r.answered key source answer := by
  have hlog : (logged fetch r.chunks.asking.boundary r.chunks.asking.batchSize).run
      (r.source, r.fetches) =
        (((fetch r.chunks.boundary r.chunks.batchSize).run r.source).1,
          ((fetch r.chunks.boundary r.chunks.batchSize).run r.source).2,
          r.fetches ++ [⟨r.chunks.boundary, r.chunks.batchSize,
            ((fetch r.chunks.boundary r.chunks.batchSize).run r.source).1⟩]) := rfl
  rw [hf] at hlog
  simp only [call, next_of_fetch key (logged fetch) (step_of_not_over hb h), StateT.run_bind, hlog]
  cases answer <;> rfl

theorem call_cases (key : α → String) (fetch : Source (StateM σ) α) (r : Run σ α) :
    (∃ row rest, r.chunks.buffer = row :: rest ∧ r.call key fetch =
      (.ok (some row), ⟨{ r.chunks with buffer := rest }, r.source, r.fetches⟩)) ∨
    (r.chunks.buffer = [] ∧ r.chunks.isOver = true ∧ r.call key fetch =
      (.ok none, ⟨{ r.chunks with exhausted := true }, r.source, r.fetches⟩)) ∨
    (r.chunks.buffer = [] ∧ r.chunks.isOver = false ∧ ∃ answer source,
      (fetch r.chunks.boundary r.chunks.batchSize).run r.source = (answer, source) ∧
        r.call key fetch = r.answered key source answer) := by
  cases hb : r.chunks.buffer with
  | cons row rest => exact .inl ⟨row, rest, rfl, call_of_buffer hb⟩
  | nil =>
    cases ho : r.chunks.isOver with
    | true => exact .inr (.inl ⟨rfl, rfl, call_of_over hb ho⟩)
    | false => exact .inr (.inr ⟨rfl, rfl, _, _, rfl, call_of_fetch hb ho rfl⟩)

theorem after_add (key : α → String) (fetch : Source (StateM σ) α) (r : Run σ α) (m n : Nat) :
    r.after key fetch (m + n) = (r.after key fetch m).after key fetch n := by
  induction n with
  | zero => rfl
  | succ n ih => exact congrArg (fun r => (call key fetch r).2) ih

theorem result_add (key : α → String) (fetch : Source (StateM σ) α) (r : Run σ α) (m n : Nat) :
    r.result key fetch (m + n) = (r.after key fetch m).result key fetch n :=
  congrArg (fun r => (call key fetch r).1) (after_add key fetch r m n)

/-- what every call keeps holds of every run -/
theorem after_induction {I : Run σ α → Prop} (hstart : I r)
    (hcall : ∀ r, I r → I (r.call key fetch).2) (n : Nat) : I (r.after key fetch n) := by
  induction n with
  | zero => exact hstart
  | succ n ih => exact hcall _ ih

/-- a call of the logged iteration is one of the iteration itself -/
theorem next_run (key : α → String) (fetch : Source (StateM σ) α) (r : Run σ α) :
    (r.chunks.next key fetch).run r.source =
      (((r.call key fetch).1, (r.call key fetch).2.chunks), (r.call key fetch).2.source) := by
  cases hstep : r.chunks.step with
  | yield row c =>
    simp only [call, next, hstep]
    rfl
  | finished c =>
    simp only [call, next, hstep]
    rfl
  | fetch c =>
    obtain ⟨answer, source, hf⟩ : ∃ answer source,
        (fetch c.boundary c.batchSize).run r.source = (answer, source) := ⟨_, _, rfl⟩
    have hlog : (logged fetch c.boundary c.batchSize).run (r.source, r.fetches) =
        (((fetch c.boundary c.batchSize).run r.source).1,
          ((fetch c.boundary c.batchSize).run r.source).2,
          r.fetches ++ [⟨c.boundary, c.batchSize,
            ((fetch c.boundary c.batchSize).run r.source).1⟩]) := rfl
    rw [hf] at hlog
    simp only [call, next_of_fetch key _ hstep, StateT.run_bind, hlog, hf]
    cases answer <;> rfl

/-- the rows that the calls of a run return one by one -/
theorem drain_eq {rows : List α} (h : ∀ m ≤ rows.length, r.result key fetch m = .ok rows[m]?)
    {limit : Nat} (hlimit : rows.length < limit) :
    (drain key fetch limit r.chunks).run r.source =
      (some (rows, none, (r.after key fetch (rows.length + 1)).chunks),
        (r.after key fetch (rows.length + 1)).source) := by
  induction rows generalizing r limit with
  | nil =>
    obtain ⟨limit, rfl⟩ := Nat.exists_eq_add_of_lt hlimit
    have hnone : (r.call key fetch).1 = .ok none := h 0 (Nat.le_refl 0)
    simp only [drain, StateT.run_bind, next_run, hnone]
    rfl
  | cons row rows ih =>
    obtain ⟨limit, rfl⟩ := Nat.exists_eq_add_of_lt hlimit
    have hrow : (r.call key fetch).1 = .ok (some row) := h 0 (Nat.zero_le _)
    have htail : ∀ m ≤ rows.length, (r.after key fetch 1).result key fetch m = .ok rows[m]? := by
      intro m hm
      rw [← result_add, Nat.add_comm 1 m]
      exact h (m + 1) (Nat.succ_le_succ hm)
    have hmore : rows.length < (row :: rows).length + limit := by
      rw [List.length_cons]
      omega
    have hrest := ih htail hmore
    rw [← after_add, Nat.add_comm 1 (rows.length + 1)] at hrest
    have hdrain : (drain key fetch ((row :: rows).length + limit + 1) r.chunks).run r.source =
        let rest := (drain key fetch ((row :: rows).length + limit)
          (r.after key fetch 1).chunks).run (r.after key fetch 1).source
        (rest.1.map fun found => (row :: found.1, found.2), rest.2) := by
      simp only [drain, StateT.run_bind, next_run, hrow]
      rfl
    rw [hdrain, hrest]
    rfl

end Run

/-! ### what the log says about the state -/

/-- the rows that the last fetch brought -/
def lastBatch (log : List (Fetch α)) : List α :=
  (log.getLast?.bind (·.answer.toOption)).getD []

theorem lastBatch_concat (log : List (Fetch α)) (f : Fetch α) :
    lastBatch (log ++ [f]) = f.answer.toOption.getD [] := by
  simp [lastBatch]

theorem exists_fetch_of_lastBatch_ne_nil {log : List (Fetch α)} (h : lastBatch log ≠ []) :
    ∃ f ∈ log, f.answer = .ok (lastBatch log) := by
  rcases List.eq_nil_or_concat' log with rfl | ⟨log, f, rfl⟩
  · exact absurd rfl h
  · refine ⟨f, List.mem_append_right _ List.mem_cons_self, ?_⟩
    rw [lastBatch_concat] at h ⊢
    cases hf : f.answer with
    | error e => exact absurd rfl (hf ▸ h)
    | ok batch => rfl

/-- the key of the last row, if there is one -/
def lastKey (key : α → String) (rows : List α) : Option String := rows.getLast?.map key

/-- the last key of a batch that came with rows -/
def Fetch.lastKey? (key : α → String) (f : Fetch α) : Option String :=
  match f.answer with
  | .ok batch => lastKey key batch
  | .error _ => none

/-- the last keys of the batches that came, one after the other -/
def boundaries (key : α → String) (log : List (Fetch α)) : List String :=
  log.filterMap (Fetch.lastKey? key)

/-- the keys that rows have been asked for after -/
def keysAsked (log : List (Fetch α)) : List String := log.filterMap (·.after)

theorem boundaries_append (key : α → String) (log more : List (Fetch α)) :
    boundaries key (log ++ more) = boundaries key log ++ boundaries key more :=
  List.filterMap_append

theorem keysAsked_concat (log : List (Fetch α)) (f : Fetch α) :
    keysAsked (log ++ [f]) = keysAsked log ++ f.after.toList := by
  unfold keysAsked
  rw [List.filterMap_append]
  cases hf : f.after <;> simp [hf]

namespace Run

/-- the state of a run and its log agree: the boundary is the last key of the last batch that came
with rows, and every fetch was made after the boundary of its time, after no key twice -/
structure Traced (key : α → String) (r : Run σ α) : Prop where
  boundary : r.chunks.boundary = (boundaries key r.fetches).getLast?
  seen : r.chunks.seen = (keysAsked r.fetches).reverse
  nodup : (keysAsked r.fetches).Nodup
  asked : ∀ log f rest, r.fetches = log ++ f :: rest →
    f.after = (boundaries key log).getLast?

theorem traced_start (key : α → String) (batchSize : Nat) (s : σ) :
    Traced key (start batchSize s : Run σ α) where
  boundary := rfl
  seen := rfl
  nodup := List.nodup_nil
  asked log f rest h := by simp [start] at h

variable {key : α → String} {fetch : Source (StateM σ) α} {r : Run σ α}

theorem not_mem_keysAsked (h : r.Traced key) (ho : r.chunks.isOver = false) {k : String}
    (hk : r.chunks.boundary = some k) : k ∉ keysAsked r.fetches := by
  intro hmem
  have hseen : k ∈ r.chunks.seen := h.seen ▸ List.mem_reverse.2 hmem
  simp [isOver, hk, hseen] at ho

/-- one more fetch after the boundary, whatever its answer -/
theorem Traced.fetched (h : r.Traced key) (ho : r.chunks.isOver = false) {c : Chunks α} {s : σ}
    {f : Fetch α} (hafter : f.after = r.chunks.boundary)
    (hboundary : c.boundary = (f.lastKey? key).or r.chunks.boundary)
    (hseen : c.seen = r.chunks.asking.seen) : Traced key ⟨c, s, r.fetches ++ [f]⟩ where
  boundary := by
    rw [hboundary, h.boundary, boundaries_append, List.getLast?_append]
    congr 1
    cases hf : f.lastKey? key <;> simp [boundaries, hf]
  seen := by
    change c.seen = (keysAsked (r.fetches ++ [f])).reverse
    rw [hseen, keysAsked_concat, hafter, List.reverse_append, ← h.seen]
    cases hb : r.chunks.boundary <;> simp [asking, hb]
  nodup := by
    change (keysAsked (r.fetches ++ [f])).Nodup
    rw [keysAsked_concat, hafter]
    cases hb : r.chunks.boundary with
    | none => simpa using h.nodup
    | some k =>
      have hno := not_mem_keysAsked h ho hb
      exact List.nodup_append.2 ⟨h.nodup, List.nodup_singleton k, fun a ha b hb' hab =>
        hno (by obtain rfl := List.mem_singleton.1 hb'; exact hab ▸ ha)⟩
  asked log g rest hsplit := by
    rcases List.eq_nil_or_concat rest with rfl | ⟨rest, last, rfl⟩
    · obtain ⟨rfl, hg⟩ := List.append_inj' hsplit rfl
      obtain rfl : f = g := by simpa using hg
      exact hafter.trans h.boundary
    · have hsplit' : r.fetches ++ [f] = (log ++ g :: rest) ++ [last] := by simpa using hsplit
      exact h.asked log g rest (List.append_inj' hsplit' rfl).1

theorem Traced.call (h : r.Traced key) : (r.call key fetch).2.Traced key := by
  obtain ⟨row, rest, _, hcall⟩ | ⟨_, _, hcall⟩ | ⟨_, ho, answer, source, _, hcall⟩ :=
    call_cases key fetch r
  · rw [hcall]
    exact ⟨h.boundary, h.seen, h.nodup, h.asked⟩
  · rw [hcall]
    exact ⟨h.boundary, h.seen, h.nodup, h.asked⟩
  · rw [hcall]
    cases answer with
    | error e => exact h.fetched ho rfl rfl rfl
    | ok batch =>
      cases batch with
      | nil => exact h.fetched ho rfl rfl rfl
      | cons row rest =>
        refine h.fetched ho rfl ?_ rfl
        simp [Fetch.lastKey?, lastKey, receive, List.getLast?_eq_some_getLast]

theorem traced_after (key : α → String) (fetch : Source (StateM σ) α) (batchSize : Nat) (s : σ)
    (n : Nat) : ((start batchSize s : Run σ α).after key fetch n).Traced key :=
  after_induction (traced_start key batchSize s) (fun _ h => h.call) n

/-! ### what is held, and what the source has given -/

/-- the source has given every answer in the log to a question for one batch, the batches that came
are counted, and no row is held but of the last one -/
structure Accounted (fetch : Source (StateM σ) α) (size : Nat) (r : Run σ α) : Prop where
  batchSize : r.chunks.batchSize = size
  given : ∀ f ∈ r.fetches, f.limit = size ∧ ∃ s, f.answer = ((fetch f.after f.limit).run s).1
  issued : r.chunks.issued = r.fetches.countP (·.answer.isOk)
  held : r.chunks.buffer <:+ lastBatch r.fetches

theorem accounted_start (fetch : Source (StateM σ) α) (batchSize : Nat) (s : σ) :
    Accounted fetch (max batchSize 1) (start batchSize s) where
  batchSize := rfl
  given _ hf := absurd hf List.not_mem_nil
  issued := rfl
  held := List.nil_suffix

theorem Accounted.fetched {size : Nat} (h : r.Accounted fetch size) {c : Chunks α}
    {answer : Except Error (List α)} {s source : σ}
    (hf : (fetch r.chunks.boundary r.chunks.batchSize).run s = (answer, source))
    (hsize : c.batchSize = r.chunks.batchSize)
    (hissued : c.issued = r.chunks.issued + if answer.isOk then 1 else 0)
    (hheld : c.buffer <:+ answer.toOption.getD []) :
    Accounted fetch size
      ⟨c, source, r.fetches ++ [⟨r.chunks.boundary, r.chunks.batchSize, answer⟩]⟩ where
  batchSize := hsize.trans h.batchSize
  given f hmem := by
    rcases List.mem_append.1 hmem with hold | hnew
    · exact h.given f hold
    · obtain rfl := List.mem_singleton.1 hnew
      exact ⟨h.batchSize, s, (congrArg Prod.fst hf).symm⟩
  issued := by
    change c.issued = _
    rw [hissued, h.issued, List.countP_append, List.countP_singleton]
  held := by
    change c.buffer <:+ lastBatch _
    rw [lastBatch_concat]
    exact hheld

theorem Accounted.call {size : Nat} (h : r.Accounted fetch size) :
    (r.call key fetch).2.Accounted fetch size := by
  obtain ⟨row, rest, hb, hcall⟩ | ⟨_, _, hcall⟩ | ⟨hb, _, answer, source, hf, hcall⟩ :=
    call_cases key fetch r
  · rw [hcall]
    exact ⟨h.batchSize, h.given, h.issued, (List.suffix_cons row rest).trans (hb ▸ h.held)⟩
  · rw [hcall]
    exact ⟨h.batchSize, h.given, h.issued, h.held⟩
  · rw [hcall]
    have hempty : r.chunks.asking.buffer <:+ [] := List.suffix_nil.2 hb
    cases answer with
    | error e => exact h.fetched hf rfl rfl hempty
    | ok batch =>
      cases batch with
      | nil => exact h.fetched hf rfl rfl hempty
      | cons row rest => exact h.fetched hf rfl rfl (List.suffix_cons row rest)

theorem accounted_after (key : α → String) (fetch : Source (StateM σ) α) (batchSize : Nat) (s : σ)
    (n : Nat) :
    ((start batchSize s : Run σ α).after key fetch n).Accounted fetch (max batchSize 1) :=
  after_induction (accounted_start fetch batchSize s) (fun _ h => h.call) n

/-! ### the end -/

/-- an iteration that is over stays so: it returns nothing, and nothing is fetched -/
theorem over_forever (key : α → String) (fetch : Source (StateM σ) α) (hb : r.chunks.buffer = [])
    (ho : r.chunks.isOver = true) (n : Nat) :
    r.result key fetch n = .ok none ∧ (r.after key fetch n).fetches = r.fetches := by
  have hover : ∀ n, (r.after key fetch n).chunks.buffer = [] ∧
      (r.after key fetch n).chunks.isOver = true ∧ (r.after key fetch n).fetches = r.fetches := by
    intro n
    induction n with
    | zero => exact ⟨hb, ho, rfl⟩
    | succ n ih =>
      obtain ⟨hb, ho, hlog⟩ := ih
      simp only [after, call_of_over hb ho]
      exact ⟨hb, by simp [isOver], hlog⟩
  obtain ⟨hb, ho, hlog⟩ := hover n
  exact ⟨congrArg Prod.fst (call_of_over hb ho), hlog⟩

end Run
end EntityAccess.Chunks
