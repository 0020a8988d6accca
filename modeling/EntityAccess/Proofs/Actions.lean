import EntityAccess.Program

/-!
# runs of actions

What an action does is what its parts do, one after the other, up to the first failure.

* `runOn_pure`, `runOn_liftM`, `runOn_query` : actions of one step;
* `runOn_bind_ok`, `runOn_bind_error` : one action after another;
* `of_runOn_bind`, `of_runOn_query`, `ofReply_eq_ok` : what has succeeded when an action succeeds;
* `mem_log_bind`, `mem_log_transaction` : where an event of the log comes from;
* `mem_log_bind_of_first` : what is done before something else.
-/

namespace EntityAccess.Action

open Program (Store)

variable {α β σ : Type} {store : Store σ} {s : σ}

theorem runOn_pure (a : α) : (pure a : Action α).runOn store s = (.ok a, [], s) := rfl

theorem runOn_liftM (x : Except Error α) : (liftM x : Action α).runOn store s = (x, [], s) := rfl

theorem runOn_query (q : Statement) (read : ResultSet → Except DatabaseError α) :
    (query q read).runOn store s =
      (ofReply read (store.reply q s).1, [.executed q], (store.reply q s).2) := rfl

theorem runOn_bind_ok {x : Action α} (f : α → Action β) {a : α} {log : List Event} {s' : σ}
    (h : x.runOn store s = (.ok a, log, s')) :
    (x >>= f).runOn store s =
      (((f a).runOn store s').1, log ++ ((f a).runOn store s').2.1,
        ((f a).runOn store s').2.2) := by
  unfold runOn at h ⊢
  rw [ExceptT.run_bind, Program.run_bind, h]

theorem runOn_bind_error {x : Action α} (f : α → Action β) {e : Error} {log : List Event} {s' : σ}
    (h : x.runOn store s = (.error e, log, s')) :
    (x >>= f).runOn store s = (.error e, log, s') := by
  unfold runOn at h ⊢
  rw [ExceptT.run_bind, Program.run_bind, h]
  simp [Program.run_pure]

/-- a value or an error in front of an action -/
theorem runOn_liftM_bind (x : Except Error α) (f : α → Action β) :
    ((liftM x : Action α) >>= f).runOn store s =
      match x with
      | .ok a => (f a).runOn store s
      | .error e => (.error e, [], s) := by
  cases x with
  | ok a => rw [runOn_bind_ok f (runOn_liftM (.ok a))]; rfl
  | error e => rw [runOn_bind_error f (runOn_liftM (.error e))]

/-- a value in front of an action -/
theorem liftM_ok_bind (a : α) (f : α → Action β) :
    ((liftM (.ok a : Except Error α) : Action α) >>= f) = f a := rfl

/-- both parts of what succeeds have succeeded -/
theorem of_runOn_bind {x : Action α} {f : α → Action β} {b : β} {log : List Event} {s' : σ}
    (h : (x >>= f).runOn store s = (.ok b, log, s')) :
    ∃ a first mid rest, x.runOn store s = (.ok a, first, mid) ∧
      (f a).runOn store mid = (.ok b, rest, s') ∧ log = first ++ rest := by
  rcases hx : x.runOn store s with ⟨a | a, first, mid⟩
  · rw [runOn_bind_error f hx] at h
    simp at h
  · rw [runOn_bind_ok f hx] at h
    simp only [Prod.mk.injEq] at h
    obtain ⟨hb, rfl, rfl⟩ := h
    exact ⟨a, first, mid, _, rfl, by rw [← hb], rfl⟩

theorem of_runOn_liftM {x : Except Error α} {a : α} {log : List Event} {s' : σ}
    (h : (liftM x : Action α).runOn store s = (.ok a, log, s')) :
    x = .ok a ∧ log = [] ∧ s' = s := by
  rw [runOn_liftM] at h
  simp only [Prod.mk.injEq] at h
  exact ⟨h.1, h.2.1.symm, h.2.2.symm⟩

/-- an answer that can be read -/
theorem ofReply_eq_ok {read : ResultSet → Except DatabaseError α} {r : Reply} {a : α}
    (h : ofReply read r = .ok a) : ∃ rs, r = .ok rs ∧ read rs = .ok a := by
  cases r with
  | error e =>
    have h : (.error (.database e) : Except Error α) = .ok a := h
    cases h
  | ok rs =>
    have h : (read rs).mapError Error.database = .ok a := h
    refine ⟨rs, rfl, ?_⟩
    cases hread : read rs with
    | error e =>
      rw [hread] at h
      have h : (.error (.database e) : Except Error α) = .ok a := h
      cases h
    | ok a' =>
      rw [hread] at h
      have h : (.ok a' : Except Error α) = .ok a := h
      cases h
      rfl

theorem of_runOn_query {q : Statement} {read : ResultSet → Except DatabaseError α} {a : α}
    {log : List Event} {s' : σ} (h : (query q read).runOn store s = (.ok a, log, s')) :
    (∃ rs, (store.reply q s).1 = .ok rs ∧ read rs = .ok a) ∧ s' = (store.reply q s).2 := by
  rw [runOn_query] at h
  simp only [Prod.mk.injEq] at h
  exact ⟨ofReply_eq_ok h.1, h.2.2.symm⟩

theorem of_runOn_liftM_bind {x : Except Error α} {f : α → Action β} {b : β} {log : List Event}
    {s' : σ} (h : ((liftM x : Action α) >>= f).runOn store s = (.ok b, log, s')) :
    ∃ a, x = .ok a ∧ (f a).runOn store s = (.ok b, log, s') := by
  rw [runOn_liftM_bind] at h
  cases x with
  | error e => simp at h
  | ok a => exact ⟨a, rfl, h⟩

theorem of_runOn_pure {a b : α} {log : List Event} {s' : σ}
    (h : (pure a : Action α).runOn store s = (.ok b, log, s')) : a = b ∧ s' = s := by
  rw [runOn_pure] at h
  simp only [Prod.mk.injEq, Except.ok.injEq] at h
  exact ⟨h.1, h.2.2.symm⟩

/-- a transaction succeeds, or fails, with its body -/
theorem runOn_transaction (x : Action α) :
    (transaction x).runOn store s =
      ((x.runOn store s).1, ((transaction x).runOn store s).2.1, (x.runOn store s).2.2) := by
  rcases hx : x.runOn store s with ⟨a | a, log, s'⟩
  · rw [run_transaction_error hx]
  · rw [run_transaction_ok hx]

/-- the body of a transaction that succeeds has succeeded -/
theorem of_runOn_transaction {x : Action α} {a : α} {log : List Event} {s' : σ}
    (h : (transaction x).runOn store s = (.ok a, log, s')) :
    ∃ log', x.runOn store s = (.ok a, log', s') := by
  rcases hx : x.runOn store s with ⟨err | b, log', mid⟩
  · rw [run_transaction_error hx] at h
    simp at h
  · rw [run_transaction_ok hx] at h
    simp only [Prod.mk.injEq, Except.ok.injEq] at h
    obtain ⟨rfl, _, rfl⟩ := h
    exact ⟨log', rfl⟩

/-! ### what succeeds -/

/-- ends in a value -/
def Succeeds (x : Action α) (store : Store σ) (s : σ) : Prop := ∃ a, (x.runOn store s).1 = .ok a

theorem succeeds_pure (a : α) : (pure a : Action α).Succeeds store s := ⟨a, rfl⟩

theorem succeeds_execute {q : Statement} (h : ∃ rs, (store.reply q s).1 = .ok rs) :
    (execute q).Succeeds store s := by
  obtain ⟨rs, hrs⟩ := h
  refine ⟨(), ?_⟩
  unfold execute
  rw [runOn_query, hrs]
  rfl

namespace Succeeds

variable {x : Action α} {f : α → Action β}

theorem liftM_bind {x : Except Error α} {a : α} (hx : x = .ok a) (h : (f a).Succeeds store s) :
    ((liftM x : Action α) >>= f).Succeeds store s := by
  unfold Succeeds
  rw [runOn_liftM_bind, hx]
  exact h

theorem bind (hx : x.Succeeds store s) (hf : ∀ a log s', x.runOn store s = (.ok a, log, s') →
    (f a).Succeeds store s') : (x >>= f).Succeeds store s := by
  obtain ⟨a, ha⟩ := hx
  have hrun : x.runOn store s = (.ok a, (x.runOn store s).2.1, (x.runOn store s).2.2) :=
    Prod.ext ha rfl
  obtain ⟨b, hb⟩ := hf a _ _ hrun
  refine ⟨b, ?_⟩
  rw [runOn_bind_ok f hrun]
  exact hb

theorem transaction (h : x.Succeeds store s) : (transaction x).Succeeds store s := by
  unfold Succeeds
  rw [runOn_transaction]
  exact h

end Succeeds

/-! ### what is in the log -/

theorem mem_log_bind {x : Action α} {f : α → Action β} {ev : Event}
    (h : ev ∈ ((x >>= f).runOn store s).2.1) :
    ev ∈ (x.runOn store s).2.1 ∨ ∃ a log s', x.runOn store s = (.ok a, log, s') ∧
      ev ∈ ((f a).runOn store s').2.1 := by
  rcases hx : x.runOn store s with ⟨a | a, log, s'⟩
  · rw [runOn_bind_error f hx] at h
    exact .inl h
  · rw [runOn_bind_ok f hx] at h
    exact (List.mem_append.1 h).imp_right fun h => ⟨a, log, s', rfl, h⟩

/-- what the first part does is done -/
theorem mem_log_bind_of_first {x : Action α} (f : α → Action β) {ev : Event}
    (h : ev ∈ (x.runOn store s).2.1) : ev ∈ ((x >>= f).runOn store s).2.1 := by
  rcases hx : x.runOn store s with ⟨a | a, log, s'⟩
  · rw [hx] at h
    rw [runOn_bind_error f hx]
    exact h
  · rw [hx] at h
    rw [runOn_bind_ok f hx]
    exact List.mem_append_left _ h

theorem mem_log_liftM_bind {x : Except Error α} {f : α → Action β} {ev : Event}
    (h : ev ∈ (((liftM x : Action α) >>= f).runOn store s).2.1) :
    ∃ a, x = .ok a ∧ ev ∈ ((f a).runOn store s).2.1 := by
  rw [runOn_liftM_bind] at h
  cases x with
  | error e => simp at h
  | ok a => exact ⟨a, rfl, h⟩

/-- a transaction executes what its body executes -/
theorem mem_log_transaction {x : Action α} {q : Statement}
    (h : .executed q ∈ ((transaction x).runOn store s).2.1) :
    .executed q ∈ (x.runOn store s).2.1 := by
  rcases hx : x.runOn store s with ⟨a | a, log, s'⟩
  · rw [run_transaction_error hx] at h
    simpa using h
  · rw [run_transaction_ok hx] at h
    simpa using h

end EntityAccess.Action
