import EntityAccess.Proofs.Chunks.Calls
import Mathlib.Data.Finset.Card

/-!
# iteration over any source

A source may give rows in any order, give them again, and not look at the key it is asked to go on
after.  The iteration ends all the same if the keys of its rows come from a finite set: every batch
but the first is asked for after a key, and after none twice.  So there is one batch more than there
are keys at most, and the rows of these batches are returned, no row left out and none added.

* `Answers` : sources that do not fail, with the keys of their rows;
* `Supplied` : what their fetches have in common, kept by every call (`supplied_after`);
* `length_fetches_le` : how many fetches there can be;
* `exists_batches` : what is returned from any state on;
* `iteration_terminates` : the iteration as a whole.
-/

namespace EntityAccess.Chunks

variable {σ α : Type}

/-- the source does not fail, and the keys of its rows come from a finite set -/
def Answers (key : α → String) (K : Finset String) (fetch : Source (StateM σ) α) : Prop :=
  ∀ after limit s, ∃ batch, ((fetch after limit).run s).1 = .ok batch ∧ ∀ row ∈ batch, key row ∈ K

namespace Run

variable {key : α → String} {K : Finset String} {fetch : Source (StateM σ) α} {r : Run σ α}

/-! ### how many fetches there are -/

/-- the fetches have brought rows with keys of the set, and all but the first were made after a
key -/
structure Supplied (key : α → String) (K : Finset String) (r : Run σ α) : Prop where
  answered : ∀ f ∈ r.fetches, ∃ batch, f.answer = .ok batch ∧ ∀ row ∈ batch, key row ∈ K
  asked : r.fetches.length ≤ (keysAsked r.fetches).length + 1
  first : r.chunks.isOver = false → r.chunks.boundary = none → r.fetches = []

theorem supplied_start (key : α → String) (K : Finset String) (batchSize : Nat) (s : σ) :
    Supplied key K (start batchSize s : Run σ α) where
  answered _ hf := absurd hf List.not_mem_nil
  asked := Nat.zero_le _
  first _ _ := rfl

theorem Supplied.fetched (h : r.Supplied key K) (ho : r.chunks.isOver = false) {c : Chunks α}
    {s : σ} {limit : Nat} {batch : List α} (hbatch : ∀ row ∈ batch, key row ∈ K)
    (hfirst : c.isOver = false → c.boundary ≠ none) :
    Supplied key K ⟨c, s, r.fetches ++ [⟨r.chunks.boundary, limit, .ok batch⟩]⟩ where
  answered f hf := by
    rcases List.mem_append.1 hf with hold | hnew
    · exact h.answered f hold
    · obtain rfl := List.mem_singleton.1 hnew
      exact ⟨batch, rfl, hbatch⟩
  asked := by
    -- a fetch after no key is the first
    have hasked := h.asked
    rw [keysAsked_concat, List.length_append, List.length_append, List.length_singleton]
    cases hb : r.chunks.boundary with
    | none => simp [h.first ho hb]
    | some k =>
      rw [Option.toList_some, List.length_singleton]
      omega
  first hover hnone := absurd hnone (hfirst hover)

theorem Supplied.call (hsource : Answers key K fetch) (h : r.Supplied key K) :
    (r.call key fetch).2.Supplied key K := by
  obtain ⟨row, rest, _, hcall⟩ | ⟨_, ho, hcall⟩ | ⟨_, ho, answer, source, hf, hcall⟩ :=
    call_cases key fetch r
  · rw [hcall]
    exact ⟨h.answered, h.asked, h.first⟩
  · rw [hcall]
    exact ⟨h.answered, h.asked, fun hover => nomatch hover⟩
  · obtain ⟨batch, hanswer, hbatch⟩ := hsource r.chunks.boundary r.chunks.batchSize r.source
    rw [hf] at hanswer
    obtain rfl : answer = .ok batch := hanswer
    rw [hcall]
    cases batch with
    | nil => exact h.fetched ho hbatch fun hover => nomatch hover
    | cons row rest => exact h.fetched ho hbatch fun _ => Option.some_ne_none _

theorem supplied_after (hsource : Answers key K fetch) (batchSize : Nat) (s : σ) (n : Nat) :
    ((start batchSize s : Run σ α).after key fetch n).Supplied key K :=
  after_induction (supplied_start key K batchSize s) (fun _ h => h.call hsource) n

/-- the keys that rows were asked for after are keys of rows -/
theorem mem_of_mem_keysAsked (ht : r.Traced key) (h : r.Supplied key K) {k : String}
    (hk : k ∈ keysAsked r.fetches) : k ∈ K := by
  obtain ⟨f, hf, hafter⟩ := List.mem_filterMap.1 hk
  obtain ⟨log, rest, hsplit⟩ := List.append_of_mem hf
  have hlast : (boundaries key log).getLast? = some k :=
    (ht.asked log f rest hsplit).symm.trans hafter
  obtain ⟨g, hg, hkey⟩ := List.mem_filterMap.1 (List.mem_of_getLast? hlast)
  have hmem : g ∈ r.fetches := by
    rw [hsplit]
    exact List.mem_append_left _ hg
  obtain ⟨batch, hanswer, hbatch⟩ := h.answered g hmem
  rw [Fetch.lastKey?, hanswer] at hkey
  obtain ⟨row, hrow, rfl⟩ := Option.map_eq_some_iff.1 hkey
  exact hbatch row (List.mem_of_getLast? hrow)

theorem length_fetches_le (ht : r.Traced key) (h : r.Supplied key K) :
    r.fetches.length ≤ K.card + 1 := by
  have hkeys : (keysAsked r.fetches).length ≤ K.card := by
    rw [← List.toFinset_card_of_nodup ht.nodup]
    exact Finset.card_le_card fun k hk => mem_of_mem_keysAsked ht h (List.mem_toFinset.1 hk)
  exact h.asked.trans (Nat.succ_le_succ hkeys)

/-! ### what is returned -/

/-- from here on the rows are returned one by one and nothing after them, while `more` is fetched -/
structure Returns (key : α → String) (fetch : Source (StateM σ) α) (r : Run σ α) (rows : List α)
    (more : List (Fetch α)) : Prop where
  result : ∀ m, r.result key fetch m = .ok rows[m]?
  fetches : ∀ m, rows.length < m → (r.after key fetch m).fetches = r.fetches ++ more

variable {r' : Run σ α} {rows : List α} {first more : List (Fetch α)}

/-- a call that returns a row, and what follows it -/
theorem Returns.of_some {row : α} (hcall : r.call key fetch = (.ok (some row), r'))
    (hfirst : r'.fetches = r.fetches ++ first) (h : Returns key fetch r' rows more) :
    Returns key fetch r (row :: rows) (first ++ more) where
  result m := by
    cases m with
    | zero => exact congrArg Prod.fst hcall
    | succ m =>
      rw [Nat.add_comm, result_add]
      change ((r.call key fetch).2).result key fetch m = _
      rw [hcall, Nat.add_comm, List.getElem?_cons_succ]
      exact h.result m
  fetches m hm := by
    obtain ⟨n, rfl⟩ : ∃ n, m = n + 1 := Nat.exists_eq_add_one_of_ne_zero (Nat.ne_zero_of_lt hm)
    rw [Nat.add_comm, after_add]
    change (((r.call key fetch).2).after key fetch n).fetches = _
    rw [hcall]
    change (r'.after key fetch n).fetches = _
    rw [h.fetches n (Nat.lt_of_succ_lt_succ hm), hfirst, List.append_assoc]

/-- a call that returns nothing, after which the iteration is over -/
theorem Returns.of_none (hcall : r.call key fetch = (.ok none, r'))
    (hfirst : r'.fetches = r.fetches ++ first) (hb : r'.chunks.buffer = [])
    (ho : r'.chunks.isOver = true) : Returns key fetch r [] first where
  result m := by
    cases m with
    | zero => exact congrArg Prod.fst hcall
    | succ m =>
      rw [Nat.add_comm, result_add]
      change ((r.call key fetch).2).result key fetch m = _
      rw [hcall]
      exact (over_forever key fetch hb ho m).1
  fetches m hm := by
    obtain ⟨n, rfl⟩ : ∃ n, m = n + 1 := Nat.exists_eq_add_one_of_ne_zero (Nat.ne_zero_of_lt hm)
    rw [Nat.add_comm, after_add]
    change (((r.call key fetch).2).after key fetch n).fetches = _
    rw [hcall]
    exact (over_forever key fetch hb ho n).2.trans hfirst

/-- rows that are held are returned first -/
theorem Returns.of_buffer {c : Chunks α} {s : σ} {log : List (Fetch α)} (buffer : List α)
    (h : Returns key fetch ⟨{ c with buffer := [] }, s, log⟩ rows more) :
    Returns key fetch ⟨{ c with buffer := buffer }, s, log⟩ (buffer ++ rows) more := by
  induction buffer with
  | nil => exact h
  | cons row rest ih =>
    change Returns key fetch _ _ ([] ++ more)
    exact ih.of_some (call_of_buffer rfl) (List.append_nil log).symm

/-- the rows that are held are returned, and then those of the batches that are still fetched -/
theorem exists_batches (hsource : Answers key K fetch) (ht : r.Traced key)
    (h : r.Supplied key K) :
    ∃ (batches : List (List α)) (more : List (Fetch α)), more.map (·.answer) = batches.map .ok ∧
      Returns key fetch r (r.chunks.buffer ++ batches.flatten) more := by
  -- on the number of fetches that are left
  induction hleft : K.card + 1 - r.fetches.length using Nat.strong_induction_on generalizing r with
  | _ left ih =>
    obtain ⟨c, s, log⟩ := r
    let bare : Run σ α := ⟨{ c with buffer := [] }, s, log⟩
    have hbare : ∃ (batches : List (List α)) (more : List (Fetch α)),
        more.map (·.answer) = batches.map .ok ∧ Returns key fetch bare batches.flatten more := by
      have htraced : bare.Traced key := ⟨ht.boundary, ht.seen, ht.nodup, ht.asked⟩
      have hsupplied : bare.Supplied key K := ⟨h.answered, h.asked, h.first⟩
      cases hover : bare.chunks.isOver with
      | true =>
        exact ⟨[], [], rfl, .of_none (call_of_over rfl hover) (List.append_nil log).symm rfl rfl⟩
      | false =>
        obtain ⟨batch, hanswer, hbatch⟩ := hsource c.boundary c.batchSize s
        have hcall : bare.call key fetch = _ := call_of_fetch rfl hover (Prod.ext hanswer rfl)
        have hnext : (bare.call key fetch).2.Traced key := htraced.call
        have hmore := hsupplied.call hsource
        have hbound := length_fetches_le hnext hmore
        rw [hcall] at hnext hmore hbound
        cases batch with
        | nil => exact ⟨[[]], [_], rfl, .of_none hcall rfl rfl rfl⟩
        | cons row rest =>
          let asked : Fetch α := ⟨c.boundary, c.batchSize, .ok (row :: rest)⟩
          have hlength : (log ++ [asked]).length = log.length + 1 := List.length_append
          have hone : log.length + 1 ≤ K.card + 1 := hlength.symm.trans_le hbound
          have hfewer : K.card + 1 - (log.length + 1) < left :=
            hleft ▸ Nat.sub_lt_sub_left hone (Nat.lt_succ_self _)
          obtain ⟨batches, more, hanswers, hreturns⟩ :=
            ih _ hfewer hnext hmore (congrArg (K.card + 1 - ·) hlength)
          refine ⟨(row :: rest) :: batches, asked :: more, ?_, hreturns.of_some hcall rfl⟩
          rw [List.map_cons, List.map_cons, hanswers]
    obtain ⟨batches, more, hanswers, hreturns⟩ := hbare
    exact ⟨batches, more, hanswers, hreturns.of_buffer c.buffer⟩

end Run

/-- the iteration over a source that does not fail, with keys from a finite set: it makes one fetch
more than there are keys at most, returns the rows of the batches that it has fetched, in their
order, and then nothing, for ever and without a fetch -/
theorem iteration_terminates {key : α → String} {K : Finset String}
    {fetch : Source (StateM σ) α} (hsource : Answers key K fetch) (batchSize : Nat) (s : σ) :
    let run : Run σ α := .start batchSize s
    ∃ (batches : List (List α)) (log : List (Fetch α)),
      log.map (·.answer) = batches.map .ok ∧ log.length ≤ K.card + 1 ∧
      (∀ f ∈ log, f.limit = max batchSize 1 ∧
        ∃ s, f.answer = ((fetch f.after f.limit).run s).1) ∧
      (∀ m, run.result key fetch m = .ok batches.flatten[m]?) ∧
      (∀ m, (run.after key fetch m).fetches.length ≤ K.card + 1 ∧
        (run.after key fetch m).chunks.issued = (run.after key fetch m).fetches.length) ∧
      (∀ m, batches.flatten.length < m → (run.after key fetch m).fetches = log) ∧
      ∀ limit, batches.flatten.length < limit → ∃ c source,
        (drain key fetch limit (.start batchSize)).run s =
          (some (batches.flatten, none, c), source) ∧ c.issued = log.length := by
  intro run
  obtain ⟨batches, log, hanswers, hreturns⟩ := Run.exists_batches hsource
    (Run.traced_start key batchSize s) (Run.supplied_start key K batchSize s)
  have hresult : ∀ m, run.result key fetch m = .ok batches.flatten[m]? := hreturns.result
  have hfetches : ∀ m, batches.flatten.length < m → (run.after key fetch m).fetches = log :=
    hreturns.fetches
  have hissued : ∀ m, (run.after key fetch m).chunks.issued =
      (run.after key fetch m).fetches.length := by
    intro m
    rw [(Run.accounted_after key fetch batchSize s m).issued, List.countP_eq_length]
    intro f hf
    obtain ⟨batch, hanswer, _⟩ := (Run.supplied_after hsource batchSize s m).answered f hf
    rw [hanswer]
    rfl
  have hbound : ∀ m, (run.after key fetch m).fetches.length ≤ K.card + 1 := fun m =>
    Run.length_fetches_le (Run.traced_after key fetch batchSize s m)
      (Run.supplied_after hsource batchSize s m)
  have hlog : (run.after key fetch (batches.flatten.length + 1)).fetches = log :=
    hfetches _ (Nat.lt_succ_self _)
  refine ⟨batches, log, hanswers, hlog ▸ hbound _, ?_, hresult, fun m => ⟨hbound m, hissued m⟩,
    hfetches, fun limit hlimit => ?_⟩
  · rw [← hlog]
    intro f hf
    obtain ⟨hf, hgiven⟩ := (Run.accounted_after key fetch batchSize s _).given f hf
    exact ⟨hf, hgiven⟩
  · have hdrain : (drain key fetch limit run.chunks).run run.source = _ :=
      Run.drain_eq (fun m _ => hresult m) hlimit
    refine ⟨_, _, hdrain, ?_⟩
    rw [hissued, hlog]

/-! ### a source that does not go on -/

/-- the same two rows whatever is asked, but after `b` the other way round -/
def wavering : Source (StateM Unit) String := fun after _ =>
  pure (.ok (if after = some "b" then ["b", "a"] else ["a", "b"]))

theorem answers_wavering : Answers id {"a", "b"} wavering := by
  intro after limit s
  refine ⟨if after = some "b" then ["b", "a"] else ["a", "b"], rfl, fun row hrow => ?_⟩
  split at hrow <;> simpa [or_comm] using hrow

/-- two keys, and three fetches: as many as there can be -/
theorem wavering_terminates :
    let run : Run Unit String := .start 2 ()
    Answers id {"a", "b"} wavering ∧ ({"a", "b"} : Finset String).card + 1 = 3 ∧
      run.result id wavering 5 = .ok (some "b") ∧ run.result id wavering 6 = .ok none ∧
      ∀ m, 6 < m → run.result id wavering m = .ok none ∧
        (run.after id wavering m).fetches = (run.after id wavering 7).fetches ∧
        (run.after id wavering m).fetches.length = 3 := by
  intro run
  obtain ⟨batches, log, _, _, _, hresult, _, hfetches, _⟩ :=
    iteration_terminates answers_wavering 2 ()
  have hend : run.result id wavering 6 = .ok none := rfl
  have hthree : (run.after id wavering 7).fetches.length = 3 := by decide +kernel
  have hlength : batches.flatten.length ≤ 6 :=
    List.getElem?_eq_none_iff.1 (Except.ok.inj ((hresult 6).symm.trans hend))
  have hlog : (run.after id wavering 7).fetches = log := hfetches 7 (Nat.lt_succ_of_le hlength)
  refine ⟨answers_wavering, rfl, rfl, hend, fun m hm => ?_⟩
  have hafter : batches.flatten.length < m := hlength.trans_lt hm
  rw [hresult m, List.getElem?_eq_none hafter.le, hfetches m hafter, ← hlog]
  exact ⟨rfl, rfl, hthree⟩

end EntityAccess.Chunks
