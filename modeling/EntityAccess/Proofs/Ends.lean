import EntityAccess.Chunks
import EntityAccess.Proofs.Occurrences

/-!
# how actions end

An action ends in a value or in an error.  What its values and its errors satisfy follows from its
parts; an error before anything has been executed is apart.

* `Ends` : values that pass one test and errors that pass another;
* `Ends.bind`, `Ends.foldlM`, `Ends.transaction` : from the parts to the whole;
* `Silent` : an action that executes nothing;
* `Early` : errors that pass a test unless nothing has been executed;
* `error_of_drain` : the error that ends an iteration is one of its source.
-/

namespace EntityAccess.Action

open Program (Store)

variable {α β : Type} {P : Error → Prop} {Q : α → Prop} {R : β → Prop}

/-- values pass the test `Q` and errors the test `P`, whatever the store -/
def Ends (P : Error → Prop) (Q : α → Prop) (x : Action α) : Prop :=
  ∀ (σ : Type) (store : Store σ) (s : σ),
    (∀ a, (x.runOn store s).1 = .ok a → Q a) ∧ ∀ e, (x.runOn store s).1 = .error e → P e

namespace Ends

variable {x : Action α} {f : α → Action β}

theorem pure {a : α} (h : Q a) : Ends P Q (pure a : Action α) := by
  intro σ store s
  refine ⟨fun b hb => ?_, fun e he => nomatch he⟩
  obtain rfl : a = b := Except.ok.inj hb
  exact h

protected theorem liftM {x : Except Error α} (hok : ∀ a, x = .ok a → Q a)
    (herr : ∀ e, x = .error e → P e) : Ends P Q (liftM x : Action α) := fun _ _ _ => ⟨hok, herr⟩

/-- a failure of the database, or what can be read from an answer -/
theorem query {q : Statement} {read : ResultSet → Except DatabaseError α}
    (hok : ∀ rs a, read rs = .ok a → Q a) (herr : ∀ e, P (.database e)) :
    Ends P Q (Action.query q read) := by
  intro σ store s
  rw [runOn_query]
  refine ⟨fun a ha => ?_, fun e he => ?_⟩
  · obtain ⟨rs, _, hread⟩ := ofReply_eq_ok ha
    exact hok rs a hread
  · unfold ofReply at he
    cases h : (store.reply q s).1.bind read with
    | ok a =>
      rw [h] at he
      cases he
    | error e' =>
      rw [h] at he
      obtain rfl : .database e' = e := Except.error.inj he
      exact herr e'

/-- a program that cannot fail -/
theorem lift {p : Program α} (h : ∀ (σ : Type) (store : Store σ) s, Q (p.run store s).1) :
    Ends P Q (ExceptT.lift p : Action α) := by
  intro σ store s
  have hrun : runOn (ExceptT.lift p) store s =
      (.ok (p.run store s).1, (p.run store s).2.1 ++ [], (p.run store s).2.2) :=
    Program.run_bind store p _ s
  rw [hrun]
  exact ⟨fun a ha => Except.ok.inj ha ▸ h σ store s, nofun⟩

theorem bind (hx : Ends P Q x) (hf : ∀ a, Q a → Ends P R (f a)) : Ends P R (x >>= f) := by
  intro σ store s
  obtain ⟨hok, herr⟩ := hx σ store s
  rcases h : x.runOn store s with ⟨e | a, log, s'⟩
  · rw [h] at herr
    rw [runOn_bind_error f h]
    refine ⟨fun b hb => (by cases hb), fun e' he => ?_⟩
    obtain rfl : e = e' := Except.error.inj he
    exact herr e rfl
  · rw [h] at hok
    rw [runOn_bind_ok f h]
    exact hf a (hok a rfl) σ store s'

/-- a value or an error in front of what is done with the value -/
theorem liftM_bind {x : Except Error α} (herr : ∀ e, x = .error e → P e)
    (hf : ∀ a, x = .ok a → Ends P R (f a)) : Ends P R ((liftM x : Action α) >>= f) :=
  bind (.liftM (fun _ h => h) herr) hf

theorem mono (hx : Ends P Q x) {P' : Error → Prop} {Q' : α → Prop} (herr : ∀ e, P e → P' e)
    (hok : ∀ a, Q a → Q' a) : Ends P' Q' x := fun σ store s =>
  ⟨fun a ha => hok a ((hx σ store s).1 a ha), fun e he => herr e ((hx σ store s).2 e he)⟩

theorem foldlM {f : α → β → Action α} {l : List β} (hf : ∀ a b, Q a → b ∈ l → Ends P Q (f a b))
    {a : α} (ha : Q a) : Ends P Q (l.foldlM f a) := by
  induction l generalizing a with
  | nil => exact .pure ha
  | cons b l ih =>
    rw [List.foldlM_cons]
    refine (hf a b ha List.mem_cons_self).bind fun a' ha' => ?_
    exact ih (fun a b ha hb => hf a b ha (List.mem_cons_of_mem _ hb)) ha'

theorem transaction (hx : Ends P Q x) : Ends P Q (Action.transaction x) := by
  intro σ store s
  rw [runOn_transaction]
  exact hx σ store s

theorem discard (hx : Ends P Q x) : Ends P (fun _ => True) (discard x) := by
  have h : Ends P (fun _ => True) (x >>= fun _ => (Pure.pure () : Action Unit)) :=
    hx.bind fun _ _ => .pure trivial
  exact h

end Ends

/-! ### before anything is executed -/

/-- nothing is executed -/
def Silent (x : Action α) : Prop :=
  ∀ (σ : Type) (store : Store σ) (s : σ), (x.runOn store s).2.1 = []

/-- values pass the test `Q`, and errors the test `P` unless nothing has been executed -/
def Early (P : Error → Prop) (Q : α → Prop) (x : Action α) : Prop :=
  ∀ (σ : Type) (store : Store σ) (s : σ), (∀ a, (x.runOn store s).1 = .ok a → Q a) ∧
    ∀ e, (x.runOn store s).1 = .error e → P e ∨ (x.runOn store s).2.1 = []

namespace Silent

variable {x : Action α} {f : α → Action β}

theorem pure (a : α) : Silent (pure a : Action α) := fun _ _ _ => rfl

protected theorem liftM (x : Except Error α) : Silent (liftM x : Action α) := fun _ _ _ => rfl

theorem bind (hx : Silent x) (hf : ∀ a, Silent (f a)) : Silent (x >>= f) := by
  intro σ store s
  have hlog := hx σ store s
  rcases h : x.runOn store s with ⟨e | a, log, s'⟩
  · rw [h] at hlog
    rw [runOn_bind_error f h]
    exact hlog
  · rw [h] at hlog
    rw [runOn_bind_ok f h, show log = [] from hlog, List.nil_append]
    exact hf a σ store s'

end Silent

namespace Early

variable {x : Action α} {f : α → Action β}

theorem of_ends (h : Ends P Q x) : Early P Q x := fun σ store s =>
  ⟨(h σ store s).1, fun e he => .inl ((h σ store s).2 e he)⟩

theorem mono (h : Early P Q x) {P' : Error → Prop} (herr : ∀ e, P e → P' e) : Early P' Q x :=
  fun σ store s => ⟨(h σ store s).1, fun e he => ((h σ store s).2 e he).imp_left (herr e)⟩

theorem bind (hx : Early P Q x) (hf : ∀ a, Q a → Ends P R (f a)) : Early P R (x >>= f) := by
  intro σ store s
  obtain ⟨hok, hearly⟩ := hx σ store s
  rcases h : x.runOn store s with ⟨e | a, log, s'⟩
  · rw [h] at hearly
    rw [runOn_bind_error f h]
    refine ⟨fun b hb => (by cases hb), fun e' he => ?_⟩
    obtain rfl : e = e' := Except.error.inj he
    exact hearly e rfl
  · rw [h] at hok
    rw [runOn_bind_ok f h]
    exact ⟨(hf a (hok a rfl) σ store s').1, fun e he => .inl ((hf a (hok a rfl) σ store s').2 e he)⟩

theorem silent_bind (hx : Silent x) (hq : Ends (fun _ => True) Q x)
    (hf : ∀ a, Q a → Early P R (f a)) : Early P R (x >>= f) := by
  intro σ store s
  have hlog := hx σ store s
  have hvalue := (hq σ store s).1
  rcases h : x.runOn store s with ⟨e | a, log, s'⟩
  · rw [h] at hlog
    rw [runOn_bind_error f h]
    exact ⟨fun b hb => (by cases hb), fun e' he => .inr hlog⟩
  · rw [h] at hlog hvalue
    rw [runOn_bind_ok f h, show log = [] from hlog, List.nil_append]
    exact hf a (hvalue a rfl) σ store s'

theorem liftM_bind {x : Except Error α} (hf : ∀ a, x = .ok a → Early P R (f a)) :
    Early P R ((liftM x : Action α) >>= f) :=
  silent_bind (.liftM x) (.liftM (fun _ h => h) fun _ _ => trivial) hf

theorem map (h : Early P Q x) {g : α → β} (hg : ∀ a, Q a → R (g a)) : Early P R (g <$> x) := by
  have hbind : Early P R (x >>= fun a => (Pure.pure (g a) : Action β)) :=
    h.bind fun a ha => .pure (hg a ha)
  exact hbind

end Early

/-! ### iterations -/

section

variable {key : α → String} {fetch : Chunks.Source Program α}
  (hfetch : ∀ after n, Ends P (fun _ => True) (.mk (fetch after n)))

include hfetch

/-- an error instead of a row has been raised by a batch -/
theorem error_of_next {c : Chunks α} {σ : Type} {store : Store σ} {s : σ} {e : Error}
    (h : ((c.next key fetch).run store s).1.1 = .error e) : P e := by
  unfold Chunks.next at h
  split at h
  · cases h
  · cases h
  · next after _ =>
    rw [Program.run_bind] at h
    have herr := (hfetch after.boundary after.batchSize σ store s).2
    cases hrun : ((fetch after.boundary after.batchSize).run store s).1 with
    | error e' =>
      rw [hrun] at h
      obtain rfl : e' = e := Except.error.inj h
      exact herr e' hrun
    | ok batch =>
      rw [hrun] at h
      cases h

/-- so has the error that ends an iteration -/
theorem error_of_drain {limit : Nat} {c : Chunks α} {σ : Type} {store : Store σ} {s : σ}
    {rows : List α} {e : Error} {after : Chunks α}
    (h : ((c.drain key fetch limit).run store s).1 = some (rows, some e, after)) : P e := by
  induction limit generalizing c s rows with
  | zero => cases h
  | succ limit ih =>
    unfold Chunks.drain at h
    rw [Program.run_bind] at h
    have herr : ∀ e, ((c.next key fetch).run store s).1.1 = .error e → P e := fun _ =>
      error_of_next hfetch
    rcases hnext : ((c.next key fetch).run store s).1 with ⟨e' | found, next⟩
    · rw [hnext] at h herr
      simp only [Program.run_pure, Option.some.injEq, Prod.mk.injEq] at h
      obtain rfl := h.2.1
      exact herr _ rfl
    · rw [hnext] at h
      cases found with
      | none => simp [Program.run_pure] at h
      | some row =>
        dsimp only at h
        rw [Program.run_bind, Program.run_pure] at h
        dsimp only at h
        obtain ⟨⟨rows', fault⟩, hrest, heq⟩ := Option.map_eq_some_iff.1 h
        obtain ⟨rfl, rfl⟩ := Prod.mk.inj heq
        exact ih hrest

end

end EntityAccess.Action
