import EntityAccess.Proofs.Chunks.Calls
import Mathlib.Algebra.Order.Floor.Div
import Mathlib.Data.String.Basic

/-!
# iteration by ascending keys

A source that gives the first rows after a key, in ascending order of the keys, is read to its end:
every row comes once, in that order, and no batch is asked for before the row that needs it.  Keys
are texts, compared by the rank they have for the source.

* `inKeyOrder`, `rowsAfter` : the rows of a table in order, and what is asked of it;
* `rowsAfter_lastKey` : the rows after the last key of the rows so far are the ones that follow;
* `Enumerating` : where an iteration is after so many rows, kept by every call;
* `keyset_enumerates` : the rows, the number of fetches, and what is held.
-/

namespace EntityAccess.Chunks

variable {κ σ α : Type} [LinearOrder κ]

section Table

variable (rank : String → κ) (key : α → String)

/-- rows in ascending order of their keys -/
def inKeyOrder (rows : List α) : List α :=
  rows.mergeSort fun a b => decide (rank (key a) ≤ rank (key b))

/-- the key of a row is greater than the one to start after, if there is one -/
def follows (after : Option String) (row : α) : Bool :=
  after.all fun k => decide (rank k < rank (key row))

/-- the first rows in ascending order whose key is greater than the one to start after -/
def rowsAfter (rows : List α) (after : Option String) (limit : Nat) : List α :=
  ((inKeyOrder rank key rows).filter (follows rank key after)).take limit

/-- the source gives the rows of a table after the key that is asked for -/
def Serves (rows : List α) (fetch : Source (StateM σ) α) : Prop :=
  ∀ after limit s, ((fetch after limit).run s).1 = .ok (rowsAfter rank key rows after limit)

theorem inKeyOrder_perm (rows : List α) : (inKeyOrder rank key rows).Perm rows :=
  List.mergeSort_perm rows _

variable {rank key}

theorem rank_lt_of_mem_rowsAfter {rows : List α} {after : Option String} {limit : Nat} {row : α}
    (h : row ∈ rowsAfter rank key rows after limit) : ∀ k ∈ after, rank k < rank (key row) := by
  have hfollows := (List.mem_filter.1 (List.mem_of_mem_take h)).2
  rintro k rfl
  exact of_decide_eq_true hfollows

theorem inKeyOrder_pairwise {rows : List α} (h : (rows.map fun row => rank (key row)).Nodup) :
    (inKeyOrder rank key rows).Pairwise fun a b => rank (key a) < rank (key b) := by
  have hle : (inKeyOrder rank key rows).Pairwise fun a b => rank (key a) ≤ rank (key b) := by
    refine (List.pairwise_mergeSort ?_ ?_ rows).imp of_decide_eq_true
    · intro a b c hab hbc
      exact decide_eq_true ((of_decide_eq_true hab).trans (of_decide_eq_true hbc))
    · intro a b
      simpa using le_total (rank (key a)) (rank (key b))
  have hne : (inKeyOrder rank key rows).Pairwise fun a b => rank (key a) ≠ rank (key b) :=
    List.pairwise_map.1 (((inKeyOrder_perm rank key rows).map _).nodup_iff.2 h)
  exact hle.imp₂ (fun _ _ hle hne => lt_of_le_of_ne hle hne) hne

/-- rows in order that follow the last of the first ones are the other ones -/
theorem filter_follows {done rest : List α}
    (h : (done ++ rest).Pairwise fun a b => rank (key a) < rank (key b)) :
    (done ++ rest).filter (follows rank key (lastKey key done)) = rest := by
  rcases List.eq_nil_or_concat' done with rfl | ⟨front, last, rfl⟩
  · exact List.filter_eq_self.2 fun _ _ => rfl
  · have hlast : lastKey key (front ++ [last]) = some (key last) := by simp [lastKey]
    obtain ⟨hfront, -, hcross⟩ := List.pairwise_append.1 h
    have hdone : (front ++ [last]).filter (follows rank key (some (key last))) = [] := by
      refine List.filter_eq_nil_iff.2 fun row hrow hfollows => ?_
      have hlt : rank (key last) < rank (key row) := by simpa [follows] using hfollows
      rcases List.mem_append.1 hrow with hmem | hmem
      · have hbefore : rank (key row) < rank (key last) :=
          (List.pairwise_append.1 hfront).2.2 row hmem last List.mem_cons_self
        exact hlt.asymm hbefore
      · obtain rfl := List.mem_singleton.1 hmem
        exact lt_irrefl _ hlt
    have hrest : rest.filter (follows rank key (some (key last))) = rest := by
      refine List.filter_eq_self.2 fun row hrow => ?_
      simpa [follows] using hcross last (List.mem_append_right front List.mem_cons_self) row hrow
    rw [hlast, List.filter_append, hdone, hrest, List.nil_append]

/-- the rows after the last key of the first ones are the next ones -/
theorem rowsAfter_lastKey {rows : List α} (h : (rows.map fun row => rank (key row)).Nodup)
    (m limit : Nat) :
    rowsAfter rank key rows (lastKey key ((inKeyOrder rank key rows).take m)) limit =
      ((inKeyOrder rank key rows).drop m).take limit := by
  have hsplit := List.take_append_drop m (inKeyOrder rank key rows)
  have hfilter := filter_follows (hsplit.symm ▸ inKeyOrder_pairwise h)
  rw [hsplit] at hfilter
  rw [rowsAfter, hfilter]

end Table

/-! ### how many batches so many rows need -/

section Batches

variable {size m : Nat}

theorem le_mul_ceilDiv (hsize : 0 < size) (m : Nat) : m ≤ size * (m ⌈/⌉ size) :=
  (ceilDiv_le_iff_le_mul hsize).1 le_rfl

theorem ceilDiv_succ_of_lt (hsize : 0 < size) (h : m < size * (m ⌈/⌉ size)) :
    (m + 1) ⌈/⌉ size = m ⌈/⌉ size := by
  refine le_antisymm ((ceilDiv_le_iff_le_mul hsize).2 h) ((ceilDiv_le_iff_le_mul hsize).2 ?_)
  exact (Nat.le_succ m).trans (le_mul_ceilDiv hsize (m + 1))

theorem ceilDiv_succ_of_eq (hsize : 0 < size) (h : m = size * (m ⌈/⌉ size)) :
    (m + 1) ⌈/⌉ size = m ⌈/⌉ size + 1 := by
  refine le_antisymm ((ceilDiv_le_iff_le_mul hsize).2 ?_) (Nat.succ_le_of_lt (lt_of_not_ge ?_))
  · rw [Nat.mul_add, ← h]
    omega
  · intro hle
    have hmul : m + 1 ≤ size * (m ⌈/⌉ size) := (ceilDiv_le_iff_le_mul hsize).1 hle
    omega

end Batches

namespace Run

/-- an iteration over rows in order, after the first so many: the batches that these rows need have
come, and what is left of the last one is held -/
structure Enumerating (rank : String → κ) (key : α → String) (sorted : List α) (size m : Nat)
    (r : Run σ α) : Prop where
  batchSize : r.chunks.batchSize = size
  buffer : r.chunks.buffer = (sorted.take (size * (m ⌈/⌉ size))).drop m
  boundary : r.chunks.boundary = lastKey key (sorted.take (size * (m ⌈/⌉ size)))
  /-- every key that was asked after comes before the boundary -/
  seen : ∀ k ∈ r.chunks.seen, ∃ k' ∈ r.chunks.boundary, rank k < rank k'
  unfinished : r.chunks.exhausted = false
  fetches : r.fetches.length = m ⌈/⌉ size

theorem enumerating_start (rank : String → κ) (key : α → String) (sorted : List α) (b : Nat)
    (s : σ) : Enumerating rank key sorted (max b 1) 0 (start b s) where
  batchSize := rfl
  buffer := by simp [start, Chunks.start]
  boundary := by simp [start, Chunks.start, lastKey]
  seen k hk := absurd hk List.not_mem_nil
  unfinished := rfl
  fetches := by simp [start]

variable {rank : String → κ} {key : α → String} {sorted : List α} {size m : Nat} {r : Run σ α}

theorem Enumerating.isOver (h : r.Enumerating rank key sorted size m) :
    r.chunks.isOver = false := by
  cases hb : r.chunks.boundary with
  | none => simp [Chunks.isOver, h.unfinished, hb]
  | some k =>
    have hk : k ∉ r.chunks.seen := by
      intro hmem
      obtain ⟨k', hk', hlt⟩ := h.seen k hmem
      obtain rfl : k = k' := Option.some.inj (hb.symm.trans hk')
      exact lt_irrefl _ hlt
    simp [Chunks.isOver, h.unfinished, hb, hk]

/-! ### one call -/

theorem getElem?_of_drop_take {l rest : List α} {k m : Nat} {row : α}
    (h : (l.take k).drop m = row :: rest) :
    m < k ∧ l[m]? = some row ∧ (l.take k).drop (m + 1) = rest := by
  have hlt : m < k := by
    have hlength := congrArg List.length h
    simp only [List.length_drop, List.length_take, List.length_cons] at hlength
    omega
  refine ⟨hlt, ?_, ?_⟩
  · rw [← List.getElem?_take_of_lt hlt, ← List.head?_drop, h]
    rfl
  · rw [← List.tail_drop, h]
    rfl

theorem lastKey_of_drop (key : α → String) {l rest : List α} {row : α}
    (h : l.drop m = row :: rest) :
    lastKey key l = some (key ((row :: rest).getLast (List.cons_ne_nil row rest))) := by
  rw [lastKey, ← List.take_append_drop m l, h,
    List.getLast?_append_of_ne_nil _ (List.cons_ne_nil row rest),
    List.getLast?_eq_some_getLast (List.cons_ne_nil row rest)]
  rfl

/-- a row that is held is the next one, and no batch is needed for it -/
theorem Enumerating.call_of_held (fetch : Source (StateM σ) α) (hsize : 0 < size)
    (h : r.Enumerating rank key sorted size m) {row : α} {rest : List α}
    (hb : r.chunks.buffer = row :: rest) :
    (r.call key fetch).1 = .ok sorted[m]? ∧
      (r.call key fetch).2.Enumerating rank key sorted size (m + 1) := by
  obtain ⟨hlt, hrow, hrest⟩ := getElem?_of_drop_take (h.buffer.symm.trans hb)
  have hceil := ceilDiv_succ_of_lt hsize hlt
  rw [call_of_buffer hb, hrow]
  refine ⟨rfl, ⟨h.batchSize, ?_, ?_, h.seen, h.unfinished, ?_⟩⟩
  · rw [hceil]
    exact hrest.symm
  · rw [hceil]
    exact h.boundary
  · rw [hceil]
    exact h.fetches

section Served

variable {rows : List α} {fetch : Source (StateM σ) α}

theorem length_inKeyOrder (rank : String → κ) (key : α → String) (rows : List α) :
    (inKeyOrder rank key rows).length = rows.length :=
  (inKeyOrder_perm rank key rows).length_eq

/-- with nothing held, every batch so far was needed to its last row -/
theorem Enumerating.full (hsize : 0 < size)
    (h : r.Enumerating rank key (inKeyOrder rank key rows) size m) (hm : m < rows.length)
    (hb : r.chunks.buffer = []) : m = size * (m ⌈/⌉ size) := by
  have hcount := congrArg List.length (h.buffer.symm.trans hb)
  simp only [List.length_drop, List.length_take, length_inKeyOrder, List.length_nil] at hcount
  have hle := le_mul_ceilDiv hsize m
  omega

variable (hkeys : (rows.map fun row => rank (key row)).Nodup) (hfetch : Serves rank key rows fetch)

include hkeys hfetch

/-- a call that holds nothing gets the rows after the batches so far -/
theorem Enumerating.call_of_nil (h : r.Enumerating rank key (inKeyOrder rank key rows) size m)
    (hb : r.chunks.buffer = []) :
    ∃ source, r.call key fetch = r.answered key source
      (.ok (((inKeyOrder rank key rows).drop (size * (m ⌈/⌉ size))).take size)) := by
  refine ⟨((fetch r.chunks.boundary r.chunks.batchSize).run r.source).2, ?_⟩
  refine call_of_fetch hb h.isOver (Prod.ext ?_ rfl)
  rw [hfetch, h.boundary, h.batchSize, rowsAfter_lastKey hkeys]

/-- the first row of a new batch is the next one -/
theorem Enumerating.call_of_empty (hsize : 0 < size)
    (h : r.Enumerating rank key (inKeyOrder rank key rows) size m) (hm : m < rows.length)
    (hb : r.chunks.buffer = []) :
    (r.call key fetch).1 = .ok (inKeyOrder rank key rows)[m]? ∧
      (r.call key fetch).2.Enumerating rank key (inKeyOrder rank key rows) size (m + 1) := by
  have hfull := h.full hsize hm hb
  have hceil := ceilDiv_succ_of_eq hsize hfull
  obtain ⟨source, hcall⟩ := h.call_of_nil hkeys hfetch hb
  rw [← hfull] at hcall
  obtain ⟨row, rest, hbatch⟩ : ∃ row rest,
      ((inKeyOrder rank key rows).drop m).take size = row :: rest := by
    refine List.exists_cons_of_ne_nil (List.ne_nil_of_length_pos ?_)
    rw [List.length_take, List.length_drop, length_inKeyOrder]
    omega
  -- the batches so far and this one are the first rows again
  have hnext : ((inKeyOrder rank key rows).take (size * ((m + 1) ⌈/⌉ size))).drop m =
      row :: rest := by
    rw [hceil, Nat.mul_add, ← hfull, Nat.mul_one, List.drop_take, Nat.add_sub_cancel_left, hbatch]
  obtain ⟨-, hrow, hrest⟩ := getElem?_of_drop_take hnext
  have hlast : (row :: rest).getLast (List.cons_ne_nil row rest) ∈
      rowsAfter rank key rows r.chunks.boundary size := by
    rw [h.boundary, ← hfull, rowsAfter_lastKey hkeys, hbatch]
    exact List.getLast_mem _
  have hgreater := rank_lt_of_mem_rowsAfter hlast
  rw [hcall, hbatch, hrow]
  refine ⟨rfl, ⟨h.batchSize, hrest.symm, (lastKey_of_drop key hnext).symm,
    fun k hk => ⟨_, rfl, ?_⟩, h.unfinished, ?_⟩⟩
  · rcases List.mem_append.1 hk with hk | hk
    · exact hgreater k (Option.mem_toList.1 hk)
    · obtain ⟨k', hk', hlt⟩ := h.seen k hk
      exact hlt.trans (hgreater k' hk')
  · rw [hceil, ← h.fetches]
    exact List.length_append

theorem Enumerating.call (hsize : 0 < size)
    (h : r.Enumerating rank key (inKeyOrder rank key rows) size m) (hm : m < rows.length) :
    (r.call key fetch).1 = .ok (inKeyOrder rank key rows)[m]? ∧
      (r.call key fetch).2.Enumerating rank key (inKeyOrder rank key rows) size (m + 1) := by
  cases hb : r.chunks.buffer with
  | cons row rest => exact h.call_of_held fetch hsize hb
  | nil => exact h.call_of_empty hkeys hfetch hsize hm hb

/-- the call after the last row finds an empty batch -/
theorem Enumerating.last_call (hsize : 0 < size)
    (h : r.Enumerating rank key (inKeyOrder rank key rows) size rows.length) :
    (r.call key fetch).1 = .ok none ∧ (r.call key fetch).2.chunks.buffer = [] ∧
      (r.call key fetch).2.chunks.isOver = true ∧
      (r.call key fetch).2.fetches.length = rows.length ⌈/⌉ size + 1 := by
  have hle := le_mul_ceilDiv hsize rows.length
  have hb : r.chunks.buffer = [] := by
    rw [h.buffer, List.drop_eq_nil_iff, List.length_take, length_inKeyOrder]
    omega
  obtain ⟨source, hcall⟩ := h.call_of_nil hkeys hfetch hb
  have hnone :
      ((inKeyOrder rank key rows).drop (size * (rows.length ⌈/⌉ size))).take size = [] := by
    rw [List.drop_eq_nil_of_le (by rwa [length_inKeyOrder]), List.take_nil]
  rw [hcall, hnone, ← h.fetches]
  exact ⟨rfl, hb, by simp [answered, receive, Chunks.isOver], List.length_append⟩

/-! ### all calls -/

variable (b : Nat) (s : σ)

theorem enumerating_after (hm : m ≤ rows.length) :
    ((start b s : Run σ α).after key fetch m).Enumerating rank key (inKeyOrder rank key rows)
      (max b 1) m := by
  induction m with
  | zero => exact enumerating_start rank key _ b s
  | succ m ih =>
    exact ((ih (Nat.le_of_succ_le hm)).call hkeys hfetch (lt_max_of_lt_right Nat.one_pos) hm).2

/-- after the last row nothing is returned, and one fetch was made to find that out -/
theorem result_of_gt (hm : rows.length < m) :
    (start b s : Run σ α).result key fetch m = .ok none ∧
      ((start b s : Run σ α).after key fetch m).fetches.length =
        rows.length ⌈/⌉ max b 1 + 1 := by
  obtain ⟨-, hbuffer, hover, hlast⟩ := (enumerating_after hkeys hfetch b s le_rfl).last_call hkeys
    hfetch (lt_max_of_lt_right Nat.one_pos)
  obtain ⟨j, rfl⟩ := Nat.exists_eq_add_of_lt hm
  obtain ⟨hnone, hfetches⟩ := over_forever key fetch hbuffer hover j
  rw [Nat.add_right_comm, result_add, after_add key fetch _ (rows.length + 1) j]
  exact ⟨hnone, (congrArg List.length hfetches).trans hlast⟩

theorem result_eq (m : Nat) :
    (start b s : Run σ α).result key fetch m = .ok (inKeyOrder rank key rows)[m]? := by
  have hsize : 0 < max b 1 := lt_max_of_lt_right Nat.one_pos
  have hlength := length_inKeyOrder rank key rows
  rcases Nat.lt_trichotomy m rows.length with hlt | rfl | hgt
  · exact ((enumerating_after hkeys hfetch b s hlt.le).call hkeys hfetch hsize hlt).1
  · rw [List.getElem?_eq_none hlength.le]
    exact ((enumerating_after hkeys hfetch b s le_rfl).last_call hkeys hfetch hsize).1
  · rw [List.getElem?_eq_none (by omega)]
    exact (result_of_gt hkeys hfetch b s hgt).1

omit hkeys

theorem issued_eq (m : Nat) : ((start b s : Run σ α).after key fetch m).chunks.issued =
    ((start b s : Run σ α).after key fetch m).fetches.length := by
  have haccount := accounted_after key fetch b s m
  rw [haccount.issued, List.countP_eq_length]
  intro f hf
  obtain ⟨-, source, hanswer⟩ := haccount.given f hf
  rw [hanswer, hfetch]
  rfl

theorem length_lastBatch_le (m : Nat) :
    (lastBatch ((start b s : Run σ α).after key fetch m).fetches).length ≤ max b 1 := by
  by_cases hempty : lastBatch ((start b s : Run σ α).after key fetch m).fetches = []
  · rw [hempty]
    exact Nat.zero_le _
  · obtain ⟨f, hf, hanswer⟩ := exists_fetch_of_lastBatch_ne_nil hempty
    obtain ⟨hlimit, source, hgiven⟩ := (accounted_after key fetch b s m).given f hf
    rw [hanswer, hfetch, Except.ok.injEq] at hgiven
    rw [hgiven, ← hlimit]
    exact List.length_take_le _ _

end Served

end Run

/-- an iteration over the rows of a table whose keys differ returns every row once, in ascending
order of the keys, and then nothing; it fetches one batch for every `max b 1` rows that are
returned, and an empty one at the end; of all these it holds no rows but of the last -/
theorem keyset_enumerates {rank : String → κ} {key : α → String} {rows : List α}
    (hkeys : (rows.map fun row => rank (key row)).Nodup) {fetch : Source (StateM σ) α}
    (hfetch : Serves rank key rows fetch) (b : Nat) (s : σ) :
    let sorted := inKeyOrder rank key rows
    let run : Run σ α := .start b s
    sorted.Perm rows ∧
      sorted.Pairwise (fun row next => rank (key row) < rank (key next)) ∧
      (∀ m, run.result key fetch m = .ok sorted[m]?) ∧
      (∀ m ≤ rows.length, (run.after key fetch m).fetches.length = m ⌈/⌉ max b 1) ∧
      (∀ m, rows.length < m →
        (run.after key fetch m).fetches.length = rows.length ⌈/⌉ max b 1 + 1) ∧
      (∀ m, (run.after key fetch m).chunks.issued = (run.after key fetch m).fetches.length ∧
        (run.after key fetch m).chunks.buffer <:+ lastBatch (run.after key fetch m).fetches ∧
        (lastBatch (run.after key fetch m).fetches).length ≤ max b 1) ∧
      ∀ limit, rows.length < limit → ∃ c source,
        (drain key fetch limit (.start b)).run s = (some (sorted, none, c), source) ∧
          c.issued = rows.length ⌈/⌉ max b 1 + 1 := by
  intro sorted run
  have hlength : sorted.length = rows.length := Run.length_inKeyOrder rank key rows
  have hresult := Run.result_eq hkeys hfetch b s
  have hissued := Run.issued_eq hfetch b s
  refine ⟨inKeyOrder_perm rank key rows, inKeyOrder_pairwise hkeys, hresult,
    fun m hm => (Run.enumerating_after hkeys hfetch b s hm).fetches,
    fun m hm => (Run.result_of_gt hkeys hfetch b s hm).2,
    fun m => ⟨hissued m, (Run.accounted_after key fetch b s m).held,
      Run.length_lastBatch_le hfetch b s m⟩, fun limit hlimit => ?_⟩
  have hdrain : (drain key fetch limit run.chunks).run run.source = _ :=
    Run.drain_eq (fun m _ => hresult m) (hlength.trans_lt hlimit)
  refine ⟨_, _, hdrain, ?_⟩
  rw [hissued, hlength]
  exact (Run.result_of_gt hkeys hfetch b s (Nat.lt_succ_self _)).2

/-- a table of three rows that are their own keys, read in batches of two: two fetches bring the
rows, and a third one the end -/
theorem three_rows_by_two :
    let fetch : Source (StateM Unit) String :=
      fun after limit => pure (.ok (rowsAfter id id ["k2", "k0", "k1"] after limit))
    let run : Run Unit String := .start 2 ()
    (["k2", "k0", "k1"].map fun row => id (id row)).Nodup ∧
      Serves id id ["k2", "k0", "k1"] fetch ∧
      (∀ m, run.result id fetch m = .ok ["k0", "k1", "k2"][m]?) ∧
      (run.after id fetch 2).fetches.length = 1 ∧ (run.after id fetch 3).fetches.length = 2 ∧
      (run.after id fetch 4).fetches.length = 3 := by
  intro fetch run
  have hkeys : (["k2", "k0", "k1"].map fun row => id (id row)).Nodup := by decide
  have hfetch : Serves id id ["k2", "k0", "k1"] fetch := fun _ _ _ => rfl
  have hsorted : inKeyOrder id id ["k2", "k0", "k1"] = ["k0", "k1", "k2"] := by
    simp [inKeyOrder, List.mergeSort]
  obtain ⟨-, -, hresult, hwithin, hbeyond, -⟩ := keyset_enumerates hkeys hfetch 2 ()
  rw [hsorted] at hresult
  exact ⟨hkeys, hfetch, hresult, hwithin 2 (by decide), hwithin 3 (by decide),
    hbeyond 4 (by decide)⟩

end EntityAccess.Chunks
