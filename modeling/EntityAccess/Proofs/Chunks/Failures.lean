import EntityAccess.Proofs.Chunks.Calls

/-!
# why an iteration ends

An iteration ends for one of three reasons: a batch came without rows, the last key of a batch had
been that of an earlier one, or a batch after the first has failed.  The last is a failure that
turns into an end: the key that the failed batch was to follow counts as one that was asked after,
so the next call does not ask again.

* `Ended` : the three reasons, as the log shows them;
* `end_of_iteration` : there is no other reason, and which failed batches are asked for again;
* `failed_batch_ends_iteration` : a failure after which rows are left behind.
-/

namespace EntityAccess.Chunks

variable {σ α : Type}

/-- no more rows are asked for: a batch was empty, or the last key of a batch had been that of an
earlier one, or the fetch made last, after a batch, has failed -/
def Ended (key : α → String) (log : List (Fetch α)) : Prop :=
  (∃ f ∈ log, f.answer = .ok []) ∨ ¬ (boundaries key log).Nodup ∨
    ∃ k limit e, log.getLast? = some ⟨some k, limit, .error e⟩

theorem Fetch.answer_of_lastKey?_eq_none {key : α → String} {f : Fetch α}
    (h : f.lastKey? key = none) : f.answer = .ok [] ∨ ∃ e, f.answer = .error e := by
  obtain ⟨after, limit, answer⟩ := f
  cases answer with
  | error e => exact .inr ⟨e, rfl⟩
  | ok batch =>
    have hbatch : batch = [] := by simpa [lastKey?, lastKey] using h
    exact .inl (congrArg Except.ok hbatch)

namespace Run

variable {key : α → String} {fetch : Source (StateM σ) α} {r : Run σ α}

/-- the boundary was asked after already -/
theorem Traced.ended_of_asked (h : r.Traced key) {k : String} (hk : r.chunks.boundary = some k)
    (hasked : k ∈ keysAsked r.fetches) : Ended key r.fetches := by
  obtain ⟨f, hf, hafter⟩ := List.mem_filterMap.1 hasked
  obtain ⟨log, rest, hsplit⟩ := List.append_of_mem hf
  have hlog : (boundaries key log).getLast? = some k :=
    (h.asked log f rest hsplit).symm.trans hafter
  have hlast : (boundaries key log ++ boundaries key (f :: rest)).getLast? = some k := by
    rw [← boundaries_append, ← hsplit, ← h.boundary, hk]
  -- either a later batch ends at the same key, or nothing has come since
  by_cases hnone : boundaries key (f :: rest) = []
  · have hkey : f.lastKey? key = none := by
      cases hf : f.lastKey? key with
      | none => rfl
      | some k' => simp [boundaries, hf] at hnone
    rcases Fetch.answer_of_lastKey?_eq_none hkey with hempty | ⟨e, herror⟩
    · exact .inl ⟨f, hf, hempty⟩
    · cases rest with
      | nil =>
        refine .inr (.inr ⟨k, f.limit, e, ?_⟩)
        rw [hsplit, List.getLast?_concat, ← hafter, ← herror]
      | cons g rest =>
        -- a fetch after the same key would have followed
        have hsplit' : r.fetches = (log ++ [f]) ++ g :: rest := by simpa using hsplit
        have hg : g.after = some k := by
          rw [h.asked _ g rest hsplit', boundaries_append]
          simpa [boundaries, hkey] using hlog
        have hnodup := h.nodup
        rw [hsplit] at hnodup
        simp [keysAsked, hafter, hg, List.nodup_append] at hnodup
  · refine .inr (.inl fun hnodup => ?_)
    rw [hsplit, boundaries_append] at hnodup
    have hmem : k ∈ boundaries key (f :: rest) := by
      rw [List.getLast?_append_of_ne_nil _ hnone] at hlast
      exact List.mem_of_getLast? hlast
    exact (List.nodup_append.1 hnodup).2.2 k (List.mem_of_getLast? hlog) k hmem rfl

/-- an iteration that is over has ended for a reason -/
theorem ended_of_over (h : r.Traced key) (hended : r.chunks.exhausted = true → Ended key r.fetches)
    (ho : r.chunks.isOver = true) : Ended key r.fetches := by
  rcases Bool.or_eq_true_iff.1 ho with hex | hany
  · exact hended hex
  · obtain ⟨k, hk, hseen⟩ := (Option.any_eq_true _ _).1 hany
    refine h.ended_of_asked hk ?_
    rw [← List.mem_reverse, ← h.seen]
    simpa using hseen

theorem ended_of_empty (r : Run σ α) (after : Option String) (limit : Nat) :
    Ended key (r.fetches ++ [⟨after, limit, .ok []⟩]) :=
  .inl ⟨⟨after, limit, .ok []⟩, List.mem_append_right _ List.mem_cons_self, rfl⟩

theorem exhausted_call (h : r.Traced key)
    (hended : r.chunks.exhausted = true → Ended key r.fetches)
    (hex : (r.call key fetch).2.chunks.exhausted = true) :
    Ended key (r.call key fetch).2.fetches := by
  obtain ⟨row, rest, _, hcall⟩ | ⟨_, ho, hcall⟩ | ⟨_, ho, answer, source, _, hcall⟩ :=
    call_cases key fetch r
  · rw [hcall] at hex ⊢
    exact hended hex
  · have hend := ended_of_over h hended ho
    rw [hcall]
    exact hend
  · have hopen : r.chunks.exhausted = false := (Bool.or_eq_false_iff.1 ho).1
    rw [hcall] at hex ⊢
    cases answer with
    | error e => exact absurd (hopen.symm.trans hex) (by simp)
    | ok batch =>
      cases batch with
      | nil => exact ended_of_empty r _ _
      | cons row rest => exact absurd (hopen.symm.trans hex) (by simp)

theorem exhausted_after (key : α → String) (fetch : Source (StateM σ) α) (batchSize : Nat) (s : σ)
    (n : Nat) (h : ((start batchSize s : Run σ α).after key fetch n).chunks.exhausted = true) :
    Ended key ((start batchSize s : Run σ α).after key fetch n).fetches := by
  have hkept : ((start batchSize s : Run σ α).after key fetch n).Traced key ∧
      (((start batchSize s : Run σ α).after key fetch n).chunks.exhausted = true →
        Ended key ((start batchSize s : Run σ α).after key fetch n).fetches) := by
    refine after_induction (I := fun r => r.Traced key ∧ (r.chunks.exhausted = true →
      Ended key r.fetches)) ⟨traced_start key batchSize s, fun h => ?_⟩ (fun _ h => ?_) n
    · simp [start, Chunks.start] at h
    · exact ⟨h.1.call, exhausted_call h.1 h.2⟩
  exact hkept.2 h

/-- a call that returns no row ends the iteration -/
theorem ended_of_none (h : r.Traced key) (hended : r.chunks.exhausted = true → Ended key r.fetches)
    (hnone : (r.call key fetch).1 = .ok none) : Ended key (r.call key fetch).2.fetches := by
  obtain ⟨row, rest, _, hcall⟩ | ⟨_, ho, hcall⟩ | ⟨_, _, answer, source, _, hcall⟩ :=
    call_cases key fetch r
  · rw [hcall] at hnone
    simp at hnone
  · have hend := ended_of_over h hended ho
    rw [hcall]
    exact hend
  · rw [hcall] at hnone ⊢
    cases answer with
    | error e => simp [answered] at hnone
    | ok batch =>
      cases batch with
      | nil => exact ended_of_empty r _ _
      | cons row rest => simp [answered, receive] at hnone

theorem call_of_error {e : Error} (h : (r.call key fetch).1 = .error e) :
    r.chunks.buffer = [] ∧ r.chunks.isOver = false ∧ ∃ source, (r.call key fetch).2 =
      ⟨r.chunks.asking, source,
        r.fetches ++ [⟨r.chunks.boundary, r.chunks.batchSize, .error e⟩]⟩ := by
  obtain ⟨row, rest, _, hcall⟩ | ⟨_, _, hcall⟩ | ⟨hb, ho, answer, source, _, hcall⟩ :=
    call_cases key fetch r
  · rw [hcall] at h
    simp at h
  · rw [hcall] at h
    simp at h
  · rw [hcall] at h ⊢
    cases answer with
    | error e' =>
      obtain rfl : e' = e := by simpa [answered] using h
      exact ⟨hb, ho, source, rfl⟩
    | ok batch => simp [answered] at h

theorem fetches_call (key : α → String) (fetch : Source (StateM σ) α) (hb : r.chunks.buffer = [])
    (ho : r.chunks.isOver = false) : ∃ answer, (r.call key fetch).2.fetches =
      r.fetches ++ [⟨r.chunks.boundary, r.chunks.batchSize, answer⟩] := by
  obtain ⟨answer, source, hf⟩ : ∃ answer source,
      (fetch r.chunks.boundary r.chunks.batchSize).run r.source = (answer, source) := ⟨_, _, rfl⟩
  refine ⟨answer, ?_⟩
  rw [call_of_fetch hb ho hf]
  cases answer <;> rfl

end Run

/-- waiting for a batch, an iteration is over as soon as it has a boundary -/
theorem isOver_asking {c : Chunks α} (h : c.isOver = false) :
    c.asking.isOver = c.boundary.isSome := by
  have hopen : c.exhausted = false := (Bool.or_eq_false_iff.1 h).1
  cases hb : c.boundary <;> simp [isOver, asking, hopen, hb]

/-- an iteration returns no row only at an end that has one of the three reasons; a batch that has
failed before any rows came is asked for again by the next call, and one that has failed later is
never: every later call returns nothing, without a fetch -/
theorem end_of_iteration (key : α → String) (fetch : Source (StateM σ) α) (batchSize : Nat) (s : σ)
    (n : Nat) :
    let run : Run σ α := .start batchSize s
    (run.result key fetch n = .ok none → Ended key (run.after key fetch (n + 1)).fetches) ∧
      ∀ e, run.result key fetch n = .error e → ∃ f,
        (run.after key fetch (n + 1)).fetches = (run.after key fetch n).fetches ++ [f] ∧
        f.answer = .error e ∧
        f.after = (boundaries key (run.after key fetch n).fetches).getLast? ∧
        (f.after = none → ∃ answer, (run.after key fetch (n + 2)).fetches =
          (run.after key fetch (n + 1)).fetches ++ [⟨f.after, f.limit, answer⟩]) ∧
        (f.after ≠ none → ∀ m, n < m → run.result key fetch m = .ok none ∧
          (run.after key fetch (m + 1)).fetches = (run.after key fetch (n + 1)).fetches) := by
  intro run
  have htraced : (run.after key fetch n).Traced key := Run.traced_after key fetch batchSize s n
  refine ⟨Run.ended_of_none htraced (Run.exhausted_after key fetch batchSize s n), fun e he => ?_⟩
  obtain ⟨hb, ho, source, hnext⟩ := Run.call_of_error he
  have hafter : run.after key fetch (n + 1) = _ := hnext
  have hbuffer : (run.after key fetch (n + 1)).chunks.buffer = [] := by rw [hafter]; exact hb
  have hover : (run.after key fetch (n + 1)).chunks.isOver =
      (run.after key fetch n).chunks.boundary.isSome := by rw [hafter]; exact isOver_asking ho
  refine ⟨_, congrArg Run.fetches hafter, rfl, htraced.boundary, fun hfirst => ?_, fun hlater => ?_⟩
  · change (run.after key fetch n).chunks.boundary = none at hfirst
    rw [hfirst] at hover
    obtain ⟨answer, hfetches⟩ := Run.fetches_call key fetch hbuffer hover
    refine ⟨answer, hfetches.trans ?_⟩
    rw [hafter]
    rfl
  · intro m hm
    obtain ⟨j, rfl⟩ := Nat.exists_eq_add_of_lt hm
    rw [Option.isSome_iff_ne_none.2 hlater] at hover
    have hend := Run.over_forever key fetch hbuffer hover
    have hj : n + j + 1 = (n + 1) + j := by omega
    rw [hj, Run.result_add, Nat.add_assoc (n + 1) j 1, Run.after_add key fetch run (n + 1) (j + 1)]
    exact ⟨(hend j).1, (hend (j + 1)).2⟩

/-- a source that gives its answers one after the other, whatever is asked -/
def scripted : Source (StateM (List (Except Error (List String)))) String :=
  fun _ _ => modifyGet fun
    | [] => (.ok [], [])
    | answer :: answers => (answer, answers)

/-- one row, a failure, one more row -/
def interrupted : Run (List (Except Error (List String))) String :=
  .start 2 [.ok ["a"], .error (.rule "source" "down"), .ok ["b"]]

/-- after the failure the iteration says that it is at its end, though no batch was empty, no last
key came twice, and a row is left -/
theorem failed_batch_ends_iteration :
    interrupted.result id scripted 0 = .ok (some "a") ∧
      interrupted.result id scripted 1 = .error (.rule "source" "down") ∧
      interrupted.result id scripted 2 = .ok none ∧
      (∀ f ∈ (interrupted.after id scripted 3).fetches, f.answer ≠ .ok []) ∧
      (boundaries id (interrupted.after id scripted 3).fetches).Nodup ∧
      (interrupted.after id scripted 3).source = [.ok ["b"]] := by
  have hfetches : (interrupted.after id scripted 3).fetches =
      [⟨none, 2, .ok ["a"]⟩, ⟨some "a", 2, .error (.rule "source" "down")⟩] := rfl
  refine ⟨rfl, rfl, rfl, ?_, ?_, rfl⟩
  · rw [hfetches]
    simp
  · rw [hfetches]
    exact List.nodup_singleton "a"

end EntityAccess.Chunks
