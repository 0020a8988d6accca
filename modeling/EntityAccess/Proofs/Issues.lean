import EntityAccess.Chunks
import EntityAccess.Proofs.Actions

/-!
# what programs execute

A test of statements that every part of a program passes is passed by all that the program
executes; beside it goes a test of the values, by which one part can rely on the part before it.

* `Program.Issues`, `Action.Issues` : every statement that is executed passes one test, and every
  value another;
* `Issues.bind`, `Issues.transaction` : from the parts to the whole;
* `Chunks.held_step` : no step of an iteration loses a row;
* `Issues.drain` : an iteration executes what its source executes, and yields what that yields.
-/

namespace EntityAccess

open Program (Store)

variable {α β : Type} {P : Statement → Prop}

/-- whatever the store, statements pass the test `P` and the value the test `Q` -/
def Program.Issues (P : Statement → Prop) (Q : α → Prop) (p : Program α) : Prop :=
  ∀ (σ : Type) (store : Store σ) (s : σ),
    (∀ q, .executed q ∈ (p.run store s).2.1 → P q) ∧ Q (p.run store s).1

/-- statements pass the test `P`, and a value, if there is one, the test `Q` -/
def Action.Issues (P : Statement → Prop) (Q : α → Prop) (x : Action α) : Prop :=
  Program.Issues P (fun result => ∀ a, result = .ok a → Q a) x.run

namespace Program.Issues

variable {Q : α → Prop} {R : β → Prop} {p : Program α} {f : α → Program β}

theorem pure {a : α} (h : Q a) : Program.Issues P Q (pure a) := fun _ _ _ =>
  ⟨fun _ hq => (nomatch hq), h⟩

theorem bind (hp : p.Issues P Q) (hf : ∀ a, Q a → (f a).Issues P R) : (p >>= f).Issues P R := by
  intro σ store s
  obtain ⟨hfirst, hvalue⟩ := hp σ store s
  obtain ⟨hsecond, hresult⟩ := hf _ hvalue σ store (p.run store s).2.2
  rw [run_bind]
  exact ⟨fun q hq => (List.mem_append.1 hq).elim (hfirst q) (hsecond q), hresult⟩

theorem mono (hp : p.Issues P Q) {Q' : α → Prop} (h : ∀ a, Q a → Q' a) : p.Issues P Q' :=
  fun σ store s => ⟨(hp σ store s).1, h _ (hp σ store s).2⟩

end Program.Issues

/-- the rows that a step yields and holds -/
def Chunks.Step.held : Chunks.Step α → List α
  | .yield row after => row :: after.buffer
  | .finished after => after.buffer
  | .fetch after => after.buffer

/-- no step loses a row -/
theorem Chunks.held_step (c : Chunks α) : c.step.held = c.buffer := by
  cases hb : c.buffer with
  | cons row rest => rw [c.step_of_buffer hb, Step.held]
  | nil =>
    have hstep : ∀ x : Step α, x = c.step → x.held = [] := by
      intro x hx
      unfold step at hx
      rw [hb] at hx
      dsimp only at hx
      split at hx
      · exact hx ▸ hb
      · split at hx
        · exact hx ▸ hb
        · split at hx <;> exact hx ▸ rfl
    exact hstep _ rfl

namespace Action.Issues

variable {Q : α → Prop} {R : β → Prop} {x : Action α} {f : α → Action β}

theorem of_mem_log (hx : Issues P Q x) {σ : Type} {store : Store σ} {s : σ} {q : Statement}
    (hq : .executed q ∈ (x.runOn store s).2.1) : P q :=
  (hx σ store s).1 q hq

theorem of_runOn (hx : Issues P Q x) {σ : Type} {store : Store σ} {s s' : σ} {a : α}
    {log : List Event} (h : x.runOn store s = (.ok a, log, s')) : Q a :=
  (hx σ store s).2 a (congrArg Prod.fst h)

theorem pure {a : α} (h : Q a) : Issues P Q (pure a : Action α) :=
  Program.Issues.pure fun _ hb => Except.ok.inj hb ▸ h

protected theorem liftM {x : Except Error α} (h : ∀ a, x = .ok a → Q a) :
    Issues P Q (liftM x : Action α) := fun _ _ _ => ⟨fun _ hq => (nomatch hq), h⟩

theorem query {q : Statement} {read : ResultSet → Except DatabaseError α} (hq : P q)
    (h : ∀ rs a, read rs = .ok a → Q a) : Issues P Q (Action.query q read) := by
  intro σ store s
  refine ⟨fun q' hq' => ?_, fun a ha => ?_⟩
  · obtain rfl : q' = q := by simpa [Action.query, ExceptT.run_mk, Program.run] using hq'
    exact hq
  · obtain ⟨rs, _, hread⟩ := ofReply_eq_ok ha
    exact h rs a hread

theorem execute {q : Statement} (hq : P q) : Issues P (fun _ => True) (Action.execute q) :=
  query hq fun _ _ _ => trivial

theorem fresh : Issues P (fun _ => True) Action.fresh := fun _ _ _ =>
  ⟨fun _ hq => (nomatch hq), fun _ _ => trivial⟩

/-- a program that cannot fail -/
theorem lift {p : Program α} (hp : p.Issues P Q) : Issues P Q (ExceptT.lift p : Action α) :=
  Program.Issues.bind hp fun _ ha => Program.Issues.pure fun _ hb => Except.ok.inj hb ▸ ha

theorem bind (hx : Issues P Q x) (hf : ∀ a, Q a → Issues P R (f a)) : Issues P R (x >>= f) := by
  refine Program.Issues.bind hx fun result hresult => ?_
  cases result with
  | ok a => exact hf a (hresult a rfl)
  | error e => exact Program.Issues.pure fun _ hb => nomatch hb

/-- a value or an error in front of what is done with the value -/
theorem liftM_bind {x : Except Error α} (hf : ∀ a, x = .ok a → Issues P R (f a)) :
    Issues P R ((liftM x : Action α) >>= f) :=
  bind (.liftM fun _ h => h) hf

theorem mono (hx : Issues P Q x) {Q' : α → Prop} (h : ∀ a, Q a → Q' a) : Issues P Q' x :=
  Program.Issues.mono hx fun _ hresult a ha => h a (hresult a ha)

theorem map (hx : Issues P Q x) {g : α → β} (hg : ∀ a, Q a → R (g a)) : Issues P R (g <$> x) := by
  have hbind : Issues P R (x >>= fun a => (Pure.pure (g a) : Action β)) :=
    hx.bind fun a ha => .pure (hg a ha)
  exact hbind

/-- a transaction executes what its body executes -/
theorem transaction (hx : Issues P Q x) : Issues P Q (Action.transaction x) := by
  intro σ store s
  obtain ⟨hlog, hvalue⟩ := hx σ store s
  refine ⟨fun q hq => hlog q (mem_log_transaction hq), fun a ha => hvalue a ?_⟩
  have hrun : (Action.transaction x).runOn store s = _ := runOn_transaction x
  exact (congrArg Prod.fst hrun).symm.trans ha

theorem discard (hx : Issues P Q x) : Issues P (fun _ => True) (discard x) := by
  have h : Issues P (fun _ => True) (x >>= fun _ => (Pure.pure () : Action Unit)) :=
    hx.bind fun _ _ => .pure trivial
  exact h

/-! ### iterations -/

section

variable {R : α → Prop} {key : α → String} {fetch : Chunks.Source Program α}
  (hfetch : ∀ after n, Issues P (fun batch => ∀ row ∈ batch, R row) (.mk (fetch after n)))

include hfetch

/-- one row comes from the rows that are held, or from the next batch -/
theorem next {c : Chunks α} (hc : ∀ row ∈ c.buffer, R row) :
    Program.Issues P (fun found => (∀ row, found.1 = .ok (some row) → R row) ∧
      ∀ row ∈ found.2.buffer, R row) (c.next key fetch) := by
  have hheld := c.held_step
  unfold Chunks.next
  split
  · next row after hstep =>
    rw [hstep, Chunks.Step.held] at hheld
    obtain ⟨hrow, hrest⟩ := List.forall_mem_cons.1 (hheld ▸ hc)
    refine .pure ⟨fun row' h => ?_, hrest⟩
    obtain rfl := Option.some.inj (Except.ok.inj h)
    exact hrow
  · next after hstep =>
    rw [hstep, Chunks.Step.held] at hheld
    exact .pure ⟨by simp, hheld ▸ hc⟩
  · next after hstep =>
    rw [hstep, Chunks.Step.held] at hheld
    refine Program.Issues.bind (hfetch after.boundary after.batchSize) fun result hresult => ?_
    cases result with
    | error e => exact .pure ⟨by simp, hheld ▸ hc⟩
    | ok batch =>
      have hbatch := hresult batch rfl
      cases batch with
      | nil => exact .pure ⟨by simp, hheld ▸ hc⟩
      | cons row rest =>
        obtain ⟨hrow, hrest⟩ := List.forall_mem_cons.1 hbatch
        refine .pure ⟨fun row' h => ?_, hrest⟩
        obtain rfl := Option.some.inj (Except.ok.inj h)
        exact hrow

/-- an iteration, up to its end or to the first error -/
theorem drain {limit : Nat} {c : Chunks α} (hc : ∀ row ∈ c.buffer, R row) :
    Program.Issues P (fun found => ∀ rows fault after, found = some (rows, fault, after) →
      ∀ row ∈ rows, R row) (c.drain key fetch limit) := by
  induction limit generalizing c with
  | zero => exact .pure nofun
  | succ limit ih =>
    unfold Chunks.drain
    refine Program.Issues.bind (next hfetch hc) fun (result, after) ⟨hresult, hafter⟩ => ?_
    cases result with
    | error e =>
      refine .pure fun rows fault after' h => ?_
      obtain rfl := (Prod.mk.inj (Option.some.inj h)).1
      exact List.forall_mem_nil _
    | ok found =>
      cases found with
      | none =>
        refine .pure fun rows fault after' h => ?_
        obtain rfl := (Prod.mk.inj (Option.some.inj h)).1
        exact List.forall_mem_nil _
      | some row =>
        refine Program.Issues.bind (ih hafter) fun found hfound => ?_
        refine .pure fun rows fault after' h => ?_
        obtain ⟨⟨rows', fault', after''⟩, rfl, heq⟩ := Option.map_eq_some_iff.1 h
        obtain rfl := (Prod.mk.inj heq).1
        exact List.forall_mem_cons.2 ⟨hresult row rfl, hfound _ _ _ rfl⟩

end

end Action.Issues
end EntityAccess
