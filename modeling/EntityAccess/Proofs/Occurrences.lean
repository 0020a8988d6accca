import EntityAccess.Proofs.Actions

/-!
# where a statement stands in a log

A statement that an action executes is executed by one of its parts, and what has been logged before
it comes from the parts before that one.

* `runOn_bind_cases`, `runOn_transaction_cases` : everything that a run of two parts, or of a
  transaction, can be;
* `Executes` : a statement is executed, and what has been logged before it;
* `Executes.of_bind`, `Executes.of_transaction` : which part executes it;
* `Executes.bind_of_first`, `Executes.bind_after`, `Executes.after_begin` : what a part executes is
  executed.
-/

namespace EntityAccess.Action

open Program (Store)

variable {α β σ : Type} {store : Store σ} {s s' : σ} {log : List Event}

/-! ### runs -/

/-- the first part fails, or both have run -/
theorem runOn_bind_cases {x : Action α} {f : α → Action β} {result : Except Error β}
    (h : (x >>= f).runOn store s = (result, log, s')) :
    (∃ e, x.runOn store s = (.error e, log, s') ∧ result = .error e) ∨
      ∃ a first mid rest, x.runOn store s = (.ok a, first, mid) ∧
        (f a).runOn store mid = (result, rest, s') ∧ log = first ++ rest := by
  rcases hx : x.runOn store s with ⟨e | a, first, mid⟩
  · rw [runOn_bind_error f hx] at h
    simp only [Prod.mk.injEq] at h
    obtain ⟨rfl, rfl, rfl⟩ := h
    exact .inl ⟨e, rfl, rfl⟩
  · rw [runOn_bind_ok f hx] at h
    simp only [Prod.mk.injEq] at h
    obtain ⟨hresult, rfl, rfl⟩ := h
    exact .inr ⟨a, first, mid, _, rfl, by rw [← hresult], rfl⟩

/-- a value or an error in front of what runs -/
theorem runOn_liftM_bind_cases {x : Except Error α} {f : α → Action β} {result : Except Error β}
    (h : ((liftM x : Action α) >>= f).runOn store s = (result, log, s')) :
    (∃ e, x = .error e ∧ result = .error e ∧ log = [] ∧ s' = s) ∨
      ∃ a, x = .ok a ∧ (f a).runOn store s = (result, log, s') := by
  rw [runOn_liftM_bind] at h
  cases x with
  | error e =>
    simp only [Prod.mk.injEq] at h
    exact .inl ⟨e, rfl, h.1.symm, h.2.1.symm, h.2.2.symm⟩
  | ok a => exact .inr ⟨a, rfl, h⟩

/-- what a transaction executes stands between its marks -/
theorem runOn_transaction_cases {x : Action α} {result : Except Error α}
    (h : (transaction x).runOn store s = (result, log, s')) :
    ∃ inner, x.runOn store s = (result, inner, s') ∧
      log = .marked .begin :: inner ++ [.marked (if result.isOk then .commit else .rollback)] := by
  rcases hx : x.runOn store s with ⟨e | a, inner, mid⟩
  · rw [run_transaction_error hx] at h
    simp only [Prod.mk.injEq] at h
    obtain ⟨rfl, rfl, rfl⟩ := h
    exact ⟨inner, rfl, rfl⟩
  · rw [run_transaction_ok hx] at h
    simp only [Prod.mk.injEq] at h
    obtain ⟨rfl, rfl, rfl⟩ := h
    exact ⟨inner, rfl, rfl⟩

/-! ### statements -/

/-- the action executes `q`, and `before` is what it has logged until then -/
def Executes (x : Action α) (store : Store σ) (s : σ) (before : List Event) (q : Statement) :
    Prop :=
  ∃ after, (x.runOn store s).2.1 = before ++ .executed q :: after

variable {x : Action α} {f : α → Action β} {before : List Event} {q : Statement}

theorem executes_of_mem (h : .executed q ∈ (x.runOn store s).2.1) :
    ∃ before, x.Executes store s before q := by
  obtain ⟨before, after, hlog⟩ := List.append_of_mem h
  exact ⟨before, after, hlog⟩

namespace Executes

theorem mem_log (h : x.Executes store s before q) : .executed q ∈ (x.runOn store s).2.1 := by
  obtain ⟨after, hlog⟩ := h
  rw [hlog]
  exact List.mem_append_right before List.mem_cons_self

theorem not_pure {a : α} (h : (pure a : Action α).Executes store s before q) : False :=
  absurd h.mem_log List.not_mem_nil

theorem of_query {q' : Statement} {read : ResultSet → Except DatabaseError α}
    (h : (query q' read).Executes store s before q) : before = [] ∧ q = q' := by
  obtain ⟨after, hlog⟩ := h
  rw [runOn_query] at hlog
  cases before with
  | nil =>
    obtain ⟨hq, _⟩ := List.cons.inj hlog
    exact ⟨rfl, (Event.executed.inj hq).symm⟩
  | cons ev before => simp at hlog

/-- a statement that is asked is executed -/
theorem asked {read : ResultSet → Except DatabaseError α} :
    (query q read).Executes store s [] q := ⟨[], by rw [runOn_query]; rfl⟩

/-- what the first part executes is executed -/
theorem bind_of_first (f : α → Action β) (h : x.Executes store s before q) :
    (x >>= f).Executes store s before q := by
  obtain ⟨after, hlog⟩ := h
  rcases hx : x.runOn store s with ⟨e | a, first, mid⟩
  · refine ⟨after, ?_⟩
    rw [runOn_bind_error f hx, ← hlog, hx]
  · refine ⟨after ++ ((f a).runOn store mid).2.1, ?_⟩
    rw [hx] at hlog
    rw [runOn_bind_ok f hx, ← List.cons_append, ← List.append_assoc, ← hlog]

/-- what the second part executes is executed, after all that the first has logged -/
theorem bind_after {a : α} {first rest : List Event} {mid : σ}
    (hx : x.runOn store s = (.ok a, first, mid)) (h : (f a).Executes store mid rest q) :
    (x >>= f).Executes store s (first ++ rest) q := by
  obtain ⟨after, hlog⟩ := h
  refine ⟨after, ?_⟩
  rw [runOn_bind_ok f hx, hlog, List.append_assoc]

/-- what the body of a transaction executes is executed after the mark of its beginning -/
theorem after_begin (h : x.Executes store s before q) :
    (transaction x).Executes store s (.marked .begin :: before) q := by
  obtain ⟨after, hlog⟩ := h
  rcases hx : (transaction x).runOn store s with ⟨result, log, s'⟩
  obtain ⟨body, hbody, hmarked⟩ := runOn_transaction_cases hx
  rw [hbody] at hlog
  dsimp only at hlog
  refine ⟨after ++ [.marked (if result.isOk then .commit else .rollback)], ?_⟩
  rw [hx]
  dsimp only
  rw [hmarked, hlog]
  simp

/-- the first part executes it, or the second does after all that the first has logged -/
theorem of_bind (h : (x >>= f).Executes store s before q) :
    x.Executes store s before q ∨ ∃ a first mid rest, x.runOn store s = (.ok a, first, mid) ∧
      before = first ++ rest ∧ (f a).Executes store mid rest q := by
  obtain ⟨after, hlog⟩ := h
  rcases hx : x.runOn store s with ⟨e | a, first, mid⟩
  · rw [runOn_bind_error f hx] at hlog
    exact .inl ⟨after, by rw [hx]; exact hlog⟩
  · rw [runOn_bind_ok f hx] at hlog
    rcases List.append_eq_append_iff.1 hlog with ⟨rest, rfl, hrest⟩ | ⟨rest, hfirst, hcons⟩
    · exact .inr ⟨a, first, mid, rest, rfl, rfl, after, hrest⟩
    · cases rest with
      | nil =>
        rw [List.append_nil] at hfirst
        exact .inr ⟨a, first, mid, [], rfl, by rw [hfirst, List.append_nil], after, hcons.symm⟩
      | cons ev rest =>
        obtain ⟨rfl, _⟩ := List.cons.inj hcons
        exact .inl ⟨rest, by rw [hx]; exact hfirst⟩

theorem of_liftM_bind {x : Except Error α}
    (h : ((liftM x : Action α) >>= f).Executes store s before q) :
    ∃ a, x = .ok a ∧ (f a).Executes store s before q := by
  obtain ⟨after, hlog⟩ := h
  rw [runOn_liftM_bind] at hlog
  cases x with
  | error e => simp at hlog
  | ok a => exact ⟨a, rfl, after, hlog⟩

/-- the body of a transaction executes it, after the mark of its beginning -/
theorem of_transaction (h : (transaction x).Executes store s before q) :
    ∃ inner, before = .marked .begin :: inner ∧ x.Executes store s inner q := by
  obtain ⟨after, hlog⟩ := h
  rcases hx : (transaction x).runOn store s with ⟨result, log, s'⟩
  obtain ⟨body, hbody, hmarked⟩ := runOn_transaction_cases hx
  rw [hx] at hlog
  dsimp only at hlog
  rw [hlog] at hmarked
  cases before with
  | nil => simp at hmarked
  | cons ev before =>
    obtain ⟨hev, hinner⟩ := List.cons.inj hmarked
    subst hev
    refine ⟨before, rfl, ?_⟩
    rcases List.append_eq_append_iff.1 hinner with ⟨rest, hrest, hlast⟩ | ⟨rest, hrest, hlast⟩
    · cases rest with
      | nil => simp at hlast
      | cons ev' rest =>
        obtain ⟨rfl, _⟩ := List.cons.inj hlast
        exact ⟨rest, by rw [hbody]; exact hrest⟩
    · cases rest with
      | nil => simp at hlast
      | cons ev' rest => simp at hlast

end Executes

end EntityAccess.Action
