import EntityAccess.Proofs.Transactions.Course

/-!
# actions that read outside of their transactions

An action without transactions of its own makes statements that pass a test; an orderly one may have
transactions, one after the other, and only reads outside of them.

* `Flat`, `Orderly` : both kinds of actions;
* `Flat.bind`, `Orderly.bind` : one action after another;
* `Orderly.transaction` : an action without transactions becomes one;
* `Orderly.transactional` : what the log of an orderly action looks like.
-/

namespace EntityAccess

open Program (Store)

/-- a statement that changes nothing -/
def Statement.isRead : Statement → Bool
  | .select _ _ | .count _ _ | .related _ _ _ | .rowExists _ _ | .nameTaken _ _ _
  | .databaseExists _ | .probe => true
  | .insert _ _ | .update _ _ _ | .delete _ _ | .define _ | .createDatabase _ | .other _ => false

/-- outside a transaction nothing but reads -/
def Entry.ReadsOutside : Entry → Prop
  | .moment (.asked q _) => q.isRead = true
  | .moment (.raised _) => True
  | .segment _ _ => True

/-- an action without transactions of its own, whose statements pass the test `P` -/
def Flat {α : Type} (P : Statement → Prop) (x : Action α) : Prop :=
  ∀ (σ : Type) (store : Store σ) (s : σ), ∃ (ms : List Moment) (result : Except Error α) (s' : σ),
    Course store x s (ms.map .moment) result s' ∧ ∀ q failure, .asked q failure ∈ ms → P q

/-- an action without transactions, whatever it asks -/
abbrev Inside {α : Type} (x : Action α) : Prop := Flat (fun _ => True) x

/-- an action that only reads -/
abbrev Reading {α : Type} (x : Action α) : Prop := Flat (fun q => q.isRead = true) x

/-- an action that only reads outside of its transactions -/
def Orderly {α : Type} (x : Action α) : Prop :=
  ∀ (σ : Type) (store : Store σ) (s : σ), ∃ (entries : List Entry) (result : Except Error α)
    (s' : σ), Course store x s entries result s' ∧ ∀ entry ∈ entries, entry.ReadsOutside

/-! ### without transactions -/

namespace Flat

variable {α β : Type} {P : Statement → Prop}

theorem pure (a : α) : Flat P (pure a : Action α) := fun _ _ s =>
  ⟨[], .ok a, s, .value a s, by simp⟩

theorem liftM (x : Except Error α) : Flat P (liftM x : Action α) := by
  intro σ store s
  cases x with
  | ok a => exact Flat.pure a σ store s
  | error e => exact ⟨[.raised e], .error e, s, .raise e s, by simp⟩

theorem query {q : Statement} (hq : P q) (read : ResultSet → Except DatabaseError α) :
    Flat P (Action.query q read) := by
  intro σ store s
  cases h : (store.reply q s).1.bind read with
  | ok a => exact ⟨[.asked q none], _, _, .answered h, by simpa using hq⟩
  | error e => exact ⟨[.asked q (some e)], _, _, .failed h, by simpa using hq⟩

theorem bind {x : Action α} {f : α → Action β} (hx : Flat P x) (hf : ∀ a, Flat P (f a)) :
    Flat P (x >>= f) := by
  intro σ store s
  obtain ⟨ms, result, s', hx, hms⟩ := hx σ store s
  cases result with
  | error e => exact ⟨ms, .error e, s', .bindError hx, hms⟩
  | ok a =>
    obtain ⟨ms', result, s'', hf, hms'⟩ := hf a σ store s'
    refine ⟨ms ++ ms', result, s'', by rw [List.map_append]; exact .bindOk hx hf, ?_⟩
    intro q failure hq
    rcases List.mem_append.1 hq with hq | hq
    · exact hms q failure hq
    · exact hms' q failure hq

theorem foldlM {f : β → α → Action β} (hf : ∀ b a, Flat P (f b a)) (l : List α) (b : β) :
    Flat P (l.foldlM f b) := by
  induction l generalizing b with
  | nil => exact .pure b
  | cons a l ih =>
    rw [List.foldlM_cons]
    exact (hf b a).bind ih

/-- the statements of its runs pass the test -/
theorem of_mem_log {x : Action α} (h : Flat P x) {σ : Type} {store : Store σ} {s : σ}
    {q : Statement} (hq : .executed q ∈ (x.runOn store s).2.1) : P q := by
  obtain ⟨ms, result, s', hc, hms⟩ := h σ store s
  rw [hc.runOn_eq, Entry.events_moments] at hq
  obtain ⟨m, hm, hq⟩ := List.mem_flatMap.1 hq
  cases m with
  | raised e => simp [Moment.events] at hq
  | asked q' failure =>
    obtain rfl : q = q' := by simpa [Moment.events] using hq
    exact hms q failure hm

end Flat

/-! ### outside of transactions -/

namespace Orderly

variable {α β : Type}

theorem pure (a : α) : Orderly (pure a : Action α) := fun _ _ s =>
  ⟨[], .ok a, s, .value a s, by simp⟩

theorem liftM (x : Except Error α) : Orderly (liftM x : Action α) := by
  intro σ store s
  cases x with
  | ok a => exact Orderly.pure a σ store s
  | error e => exact ⟨_, _, _, .raise e s, by simp [Entry.ReadsOutside]⟩

theorem fresh : Orderly Action.fresh := fun _ _ s => ⟨_, _, _, .fresh s, by simp⟩

theorem of_reading {x : Action α} (h : Reading x) : Orderly x := by
  intro σ store s
  obtain ⟨ms, result, s', hc, hms⟩ := h σ store s
  refine ⟨_, result, s', hc, fun entry hentry => ?_⟩
  obtain ⟨m, hm, rfl⟩ := List.mem_map.1 hentry
  cases m with
  | asked q failure => exact hms q failure hm
  | raised e => trivial

theorem bind {x : Action α} {f : α → Action β} (hx : Orderly x) (hf : ∀ a, Orderly (f a)) :
    Orderly (x >>= f) := by
  intro σ store s
  obtain ⟨first, result, s', hx, hfirst⟩ := hx σ store s
  cases result with
  | error e => exact ⟨first, .error e, s', .bindError hx, hfirst⟩
  | ok a =>
    obtain ⟨rest, result, s'', hf, hrest⟩ := hf a σ store s'
    refine ⟨first ++ rest, result, s'', .bindOk hx hf, fun entry h => ?_⟩
    rcases List.mem_append.1 h with h | h
    · exact hfirst entry h
    · exact hrest entry h

theorem transaction {body : Action α} (h : Inside body) : Orderly (Action.transaction body) := by
  intro σ store s
  obtain ⟨ms, result, s', hc, _⟩ := h σ store s
  exact ⟨_, result, s', .transaction hc, by simp [Entry.ReadsOutside]⟩

theorem discard {x : Action α} (hx : Orderly x) : Orderly (discard x) := by
  have h : Orderly (x >>= fun _ => (Pure.pure () : Action Unit)) := hx.bind fun _ => .pure ()
  exact h

end Orderly

/-! ### the log -/

/-- a run with its course: what is logged, where it reads, when it commits and how it fails -/
structure Transactional {σ α : Type} (store : Store σ) (s : σ) (x : Action α)
    (entries : List Entry) (result : Except Error α) (s' : σ) : Prop where
  course : Course store x s entries result s'
  /-- the log is the course: transactions are not nested, and none is left open -/
  run : x.runOn store s = (result, entries.flatMap Entry.events, s')
  /-- whatever is written is written in a transaction -/
  reads_outside : ∀ q failure, .moment (.asked q failure) ∈ entries → q.isRead = true
  /-- a commit: every statement has succeeded, and no other error has been raised -/
  commit_iff : ∀ ms committed, .segment ms committed ∈ entries →
    (committed = true ↔ (∀ q failure, .asked q failure ∈ ms → failure = none) ∧
      ∀ e, .raised e ∉ ms)
  /-- the error that is returned has happened last -/
  origin : ∀ e, result = .error e →
    ∃ before entry, entries = before ++ [entry] ∧ entry.cause = some e
  /-- an error before the first commit is returned, and nothing is committed -/
  no_commit : ∀ before entry after e, entries = before ++ entry :: after →
    entry.cause = some e → (∀ b ∈ before, b.commits = false) →
      result = .error e ∧ .marked .commit ∉ entries.flatMap Entry.events

theorem Orderly.transactional {α : Type} {x : Action α} (hx : Orderly x) {σ : Type}
    (store : Store σ) (s : σ) : ∃ entries result s', Transactional store s x entries result s' := by
  obtain ⟨entries, result, s', hc, hreads⟩ := hx σ store s
  refine ⟨entries, result, s', hc, hc.runOn_eq, fun q failure h => hreads _ h, ?_,
    fun e he => hc.exists_last he, ?_⟩
  · intro ms committed hmem
    rw [hc.committed_iff hmem]
    constructor
    · intro h
      refine ⟨fun q failure hq => ?_, fun e he => ?_⟩
      · simpa [Moment.cause] using h _ hq
      · simpa [Moment.cause] using h _ he
    · rintro ⟨hasked, hraised⟩ m hm
      cases m with
      | asked q failure => simp [Moment.cause, hasked q failure hm]
      | raised e => exact absurd hm (hraised e)
  · intro before entry after e hentries hcause hbefore
    obtain ⟨rfl, hresult⟩ := hc.last_of_cause hentries hcause
    refine ⟨hresult, fun hcommit => ?_⟩
    obtain ⟨b, hb, hcommit⟩ := List.mem_flatMap.1 hcommit
    have hcommits := Entry.commit_mem_events hcommit
    rw [hentries] at hb
    rcases List.mem_append.1 hb with hb | hb
    · rw [hbefore b hb] at hcommits
      simp at hcommits
    · obtain rfl : b = entry := by simpa using hb
      cases b with
      | moment m => simp [Entry.commits] at hcommits
      | segment ms committed =>
        have hall := (hc.committed_iff (hentries ▸ List.mem_append_right _ hb)).1 hcommits
        have hnone : Entry.firstCause ms = none := List.findSome?_eq_none_iff.2 hall
        rw [Entry.cause, hnone] at hcause
        simp at hcause

end EntityAccess
