import EntityAccess.Program
import Mathlib.Data.List.Chain
import Mathlib.Logic.Function.Basic

/-!
# programs that run at the same time

Clients share a store and take turns at it, one step of one program after the other, in any order.
What one client does is what its program does alone, with a store that is found each time in the
state in which the client has found it.

* `Interleaved` : the turns of clients, and what is left of their programs;
* `interleave` : the turns of a schedule;
* `Interleaved.before`, `Interleaved.chain` : a turn and the turns before it;
* `Interleaved.run_script` : the part of one client;
* `Interleaved.eq_of_seen`, `Interleaved.exists_first` : where a client begins;
* `Interleaved.accounted_eq` : an account of what only one client changes.
-/

namespace EntityAccess.Program

variable {ι α β γ σ : Type}

/-! ### turns -/

/-- what a program does in one step -/
inductive Deed where
  | asked (q : Statement)
  | told (m : Mark)
  /-- takes an identifier -/
  | took

/-- one step, unless nothing is left to do: what is done, what is left then, and the store -/
def step? (store : Store σ) : Program α → σ → Option (Deed × Program α × σ)
  | .done _, _ => none
  | .ask q next, s => some (.asked q, next (store.reply q s).1, (store.reply q s).2)
  | .tell m next, s => some (.told m, next, s)
  | .fresh next, s => some (.took, next (store.fresh s).1, (store.fresh s).2)

/-- one step of a client, with the store on both sides -/
structure Turn (ι σ : Type) where
  client : ι
  before : σ
  deed : Deed
  after : σ

section

variable [DecidableEq ι]

/-- clients take turns, until they have the programs `ps'` left and leave the store in `s'` -/
inductive Interleaved (store : Store σ) :
    (ps : ι → Program α) → σ → List (Turn ι σ) → (ps' : ι → Program α) → (s' : σ) → Prop where
  | nil (ps : ι → Program α) (s : σ) : Interleaved store ps s [] ps s
  | turn {ps ps' : ι → Program α} {s mid s' : σ} {i : ι} {deed : Deed} {next : Program α}
      {turns : List (Turn ι σ)} (step : (ps i).step? store s = some (deed, next, mid))
      (later : Interleaved store (Function.update ps i next) mid turns ps' s') :
      Interleaved store ps s (⟨i, s, deed, mid⟩ :: turns) ps' s'

/-- what comes of a schedule, whose clients pass when they have nothing left to do -/
def interleave (store : Store σ) :
    List ι → (ι → Program α) → σ → List (Turn ι σ) × (ι → Program α) × σ
  | [], ps, s => ([], ps, s)
  | i :: schedule, ps, s =>
    match (ps i).step? store s with
    | none => interleave store schedule ps s
    | some (deed, next, mid) =>
      let (turns, ps', s') := interleave store schedule (Function.update ps i next) mid
      (⟨i, s, deed, mid⟩ :: turns, ps', s')

theorem interleaved_interleave (store : Store σ) (schedule : List ι) (ps : ι → Program α) (s : σ) :
    Interleaved store ps s (interleave store schedule ps s).1
      (interleave store schedule ps s).2.1 (interleave store schedule ps s).2.2 := by
  induction schedule generalizing ps s with
  | nil => exact .nil ps s
  | cons i schedule ih =>
    unfold interleave
    split
    · exact ih ps s
    · next hstep => exact .turn hstep (ih _ _)

namespace Interleaved

variable {store : Store σ} {ps ps' : ι → Program α} {s s' : σ} {turns : List (Turn ι σ)}

/-- a turn is a step of what its client has left to do after the turns before it -/
theorem before {earlier later : List (Turn ι σ)} {t : Turn ι σ}
    (h : Interleaved store ps s turns ps' s') (hturns : turns = earlier ++ t :: later) :
    ∃ mid next, Interleaved store ps s earlier mid t.before ∧
      (mid t.client).step? store t.before = some (t.deed, next, t.after) := by
  induction h generalizing earlier with
  | nil => simp at hturns
  | turn step _ ih =>
    cases earlier with
    | nil =>
      obtain ⟨rfl, _⟩ := List.cons.inj hturns
      exact ⟨_, _, .nil _ _, step⟩
    | cons u earlier =>
      obtain ⟨rfl, hlater⟩ := List.cons.inj hturns
      obtain ⟨mid, next, hmid, hstep⟩ := ih hlater
      exact ⟨mid, next, .turn step hmid, hstep⟩

theorem exists_step (h : Interleaved store ps s turns ps' s') {t : Turn ι σ} (ht : t ∈ turns) :
    ∃ p next : Program α, p.step? store t.before = some (t.deed, next, t.after) := by
  obtain ⟨earlier, later, hturns⟩ := List.append_of_mem ht
  obtain ⟨mid, next, _, hstep⟩ := h.before hturns
  exact ⟨mid t.client, next, hstep⟩

/-- the store is left by one turn as it is found by the next -/
theorem chain (h : Interleaved store ps s turns ps' s') :
    turns.IsChain fun t u => u.before = t.after := by
  induction h with
  | nil => exact .nil
  | turn _ later ih =>
    refine List.isChain_cons.2 ⟨fun u hu => ?_, ih⟩
    cases later with
    | nil => simp at hu
    | turn _ _ =>
      obtain rfl := Option.some.inj hu
      rfl

end Interleaved

end

/-- what no turn changes between two turns -/
theorem before_eq_of_chain {f : σ → β} {t u : Turn ι σ} {between : List (Turn ι σ)}
    (hchain : (t :: (between ++ [u])).IsChain fun t u => u.before = t.after)
    (h : ∀ v ∈ between, f v.after = f v.before) : f u.before = f t.after := by
  induction between generalizing t with
  | nil =>
    have hnext := (List.isChain_cons.1 hchain).1 u rfl
    rw [hnext]
  | cons v between ih =>
    obtain ⟨hnext, hrest⟩ := List.isChain_cons.1 hchain
    obtain ⟨hv, hbetween⟩ := List.forall_mem_cons.1 h
    rw [ih hrest hbetween, hv, hnext v rfl]

/-! ### a store found in given states -/

/-- the states in which a store is going to be found, with an account of what it is asked -/
structure Script (σ γ : Type) where
  ahead : List σ
  account : γ

/-- a store that is found in the states of a script, and does not answer after its end -/
def Store.script (store : Store σ) (note : Statement → σ → γ → γ) : Store (Script σ γ) where
  reply q script := match script.ahead with
    | [] => (.error .driver, script)
    | s :: ahead => ((store.reply q s).1, ⟨ahead, note q s script.account⟩)
  fresh script := match script.ahead with
    | [] => ("", script)
    | s :: ahead => ((store.fresh s).1, ⟨ahead, script.account⟩)

theorem Store.exists_ahead {store : Store σ} {note : Statement → σ → γ → γ} {script : Script σ γ}
    {q : Statement} {rs : ResultSet} (h : ((store.script note).reply q script).1 = .ok rs) :
    ∃ s ahead, script.ahead = s :: ahead ∧ (store.reply q s).1 = .ok rs := by
  obtain ⟨ahead, account⟩ := script
  cases ahead with
  | nil => cases h
  | cons s ahead => exact ⟨s, ahead, rfl, h⟩

/-! ### the part of one client -/

/-- what is logged of a step -/
def Deed.events : Deed → List Event
  | .asked q => [.executed q]
  | .told m => [.marked m]
  | .took => []

/-- the state in which a step looks at the store, if it does -/
def Deed.sights (s : σ) : Deed → List σ
  | .asked _ | .took => [s]
  | .told _ => []

/-- an account after a step -/
def Deed.noted (note : Statement → σ → γ → γ) (s : σ) (account : γ) : Deed → γ
  | .asked q => note q s account
  | .told _ | .took => account

/-- what is logged of turns -/
def logged (turns : List (Turn ι σ)) : List Event := turns.flatMap (·.deed.events)

/-- the states in which turns look at the store -/
def seen (turns : List (Turn ι σ)) : List σ := turns.flatMap fun t => t.deed.sights t.before

/-- an account after turns -/
def accounted (note : Statement → σ → γ → γ) (account : γ) (turns : List (Turn ι σ)) : γ :=
  turns.foldl (fun account t => t.deed.noted note t.before account) account

theorem run_of_step {store : Store σ} (note : Statement → σ → γ → γ) {p next : Program α}
    {s mid : σ} {deed : Deed} (h : p.step? store s = some (deed, next, mid)) (ahead : List σ)
    (account : γ) :
    p.run (store.script note) ⟨deed.sights s ++ ahead, account⟩ =
      let later := next.run (store.script note) ⟨ahead, deed.noted note s account⟩
      (later.1, deed.events ++ later.2.1, later.2.2) := by
  cases p with
  | done a => cases h
  | ask q next' => cases h; rfl
  | tell m next' => cases h; rfl
  | fresh next' => cases h; rfl

section

variable [DecidableEq ι]

/-- the turns of a client -/
def turnsOf (i : ι) (turns : List (Turn ι σ)) : List (Turn ι σ) := turns.filter (·.client = i)

theorem turnsOf_self {t : Turn ι σ} {i : ι} (h : t.client = i) (turns : List (Turn ι σ)) :
    turnsOf i (t :: turns) = t :: turnsOf i turns :=
  List.filter_cons_of_pos (by simpa using h)

theorem mem_turnsOf {t : Turn ι σ} {i : ι} {turns : List (Turn ι σ)} :
    t ∈ turnsOf i turns ↔ t ∈ turns ∧ t.client = i := by
  unfold turnsOf
  rw [List.mem_filter]
  simp

theorem turnsOf_ne {t : Turn ι σ} {i : ι} (h : t.client ≠ i) (turns : List (Turn ι σ)) :
    turnsOf i (t :: turns) = turnsOf i turns :=
  List.filter_cons_of_neg (by simpa using h)

namespace Interleaved

variable {store : Store σ} {ps ps' : ι → Program α} {s s' : σ} {turns : List (Turn ι σ)}

/-- a client alone, in the states in which it has looked at the store, comes to what it has left -/
theorem run_script (h : Interleaved store ps s turns ps' s') (note : Statement → σ → γ → γ) (i : ι)
    (ahead : List σ) (account : γ) :
    (ps i).run (store.script note) ⟨seen (turnsOf i turns) ++ ahead, account⟩ =
      let later := (ps' i).run (store.script note)
        ⟨ahead, accounted note account (turnsOf i turns)⟩
      (later.1, logged (turnsOf i turns) ++ later.2.1, later.2.2) := by
  induction h generalizing account with
  | nil => rfl
  | @turn ps ps' s mid s' j deed next turns step later ih =>
    by_cases hj : j = i
    · subst hj
      have hrest := ih (deed.noted note s account)
      rw [Function.update_self] at hrest
      have hseen : seen (⟨j, s, deed, mid⟩ :: turnsOf j turns) ++ ahead =
          deed.sights s ++ (seen (turnsOf j turns) ++ ahead) := by
        unfold seen
        rw [List.flatMap_cons, List.append_assoc]
      rw [turnsOf_self (rfl : j = j), hseen, run_of_step note step, hrest]
      unfold logged
      dsimp only
      rw [List.flatMap_cons, List.append_assoc]
      rfl
    · have hrest := ih account
      rw [Function.update_of_ne (Ne.symm hj)] at hrest
      rw [turnsOf_ne hj, hrest]

/-- a client that has nothing left to do has come to its end alone -/
theorem run_script_of_done (h : Interleaved store ps s turns ps' s')
    (note : Statement → σ → γ → γ) {i : ι} {a : α} (hdone : ps' i = .done a) (account : γ) :
    (ps i).run (store.script note) ⟨seen (turnsOf i turns), account⟩ =
      (a, logged (turnsOf i turns), ⟨[], accounted note account (turnsOf i turns)⟩) := by
  have hscript := h.run_script note i [] account
  rw [hdone, List.append_nil] at hscript
  rw [hscript]
  show (a, logged (turnsOf i turns) ++ [], _) = _
  rw [List.append_nil]
  rfl

/-- what a client asks is in the log of what it does alone -/
theorem mem_log_script (h : Interleaved store ps s turns ps' s') (note : Statement → σ → γ → γ)
    {t : Turn ι σ} (ht : t ∈ turns) {q : Statement} (hdeed : t.deed = .asked q) (account : γ) :
    .executed q ∈ ((ps t.client).run (store.script note)
      ⟨seen (turnsOf t.client turns) ++ [], account⟩).2.1 := by
  rw [h.run_script note t.client [] account]
  refine List.mem_append_left _ (List.mem_flatMap.2 ⟨t, mem_turnsOf.2 ⟨ht, rfl⟩, ?_⟩)
  rw [hdeed]
  exact List.mem_cons_self

/-- a client with a program to ask something asks it in its first turn -/
theorem exists_first (h : Interleaved store ps s turns ps' s') {i : ι} {q : Statement}
    {next : Reply → Program α} (hp : ps i = .ask q next) {s₀ : σ} {states : List σ}
    (hseen : seen (turnsOf i turns) = s₀ :: states) :
    ∃ earlier t later, turns = earlier ++ t :: later ∧ t.client = i ∧ t.deed = .asked q ∧
      t.before = s₀ := by
  induction h with
  | nil => cases hseen
  | @turn ps ps' s mid s' j deed next' turns step later ih =>
    by_cases hj : j = i
    · subst hj
      rw [hp] at step
      cases step
      rw [turnsOf_self (rfl : j = j)] at hseen
      exact ⟨[], _, turns, rfl, rfl, rfl, (List.cons.inj hseen).1⟩
    · rw [turnsOf_ne hj] at hseen
      have hsame : Function.update ps j next' i = .ask q next := by
        rw [Function.update_of_ne (Ne.symm hj), hp]
      obtain ⟨earlier, t, after, rfl, hclient, hdeed, hbefore⟩ := ih hsame hseen
      exact ⟨_ :: earlier, t, after, rfl, hclient, hdeed, hbefore⟩

/-- what no other client changes is found as it was at the beginning -/
theorem eq_of_seen (h : Interleaved store ps s turns ps' s') {f : σ → β} {i : ι}
    (hf : ∀ t ∈ turns, t.client ≠ i → f t.after = f t.before) {s₀ : σ} {states : List σ}
    (hseen : seen (turnsOf i turns) = s₀ :: states) : f s₀ = f s := by
  induction h with
  | nil => cases hseen
  | @turn ps ps' s mid s' j deed next turns step later ih =>
    obtain ⟨hfirst, hrest⟩ := List.forall_mem_cons.1 hf
    by_cases hj : j = i
    · subst hj
      rw [turnsOf_self (rfl : j = j)] at hseen
      cases deed with
      | asked q => rw [← (List.cons.inj hseen).1]
      | took => rw [← (List.cons.inj hseen).1]
      | told m =>
        have hmid : mid = s := by
          cases hp : ps j with
          | tell m next => rw [hp] at step; cases step; rfl
          | _ => rw [hp] at step; cases step
        rw [ih hrest hseen, hmid]
    · rw [turnsOf_ne hj] at hseen
      exact (ih hrest hseen).trans (hfirst hj)

/-- an account of what no other client changes -/
theorem accounted_eq (h : Interleaved store ps s turns ps' s') {f : σ → γ}
    {note : Statement → σ → γ → γ} {i : ι}
    (hown : ∀ t ∈ turns, t.client = i → t.deed.noted note t.before (f t.before) = f t.after)
    (hothers : ∀ t ∈ turns, t.client ≠ i → f t.after = f t.before) :
    accounted note (f s) (turnsOf i turns) = f s' := by
  induction h with
  | nil => rfl
  | @turn ps ps' s mid s' j deed next turns step later ih =>
    obtain ⟨hmine, hrest⟩ := List.forall_mem_cons.1 hown
    obtain ⟨hfirst, hothers⟩ := List.forall_mem_cons.1 hothers
    have hlater := ih hrest hothers
    by_cases hj : j = i
    · rw [turnsOf_self hj]
      have hnoted : deed.noted note s (f s) = f mid := hmine hj
      unfold accounted at hlater ⊢
      rw [List.foldl_cons, hnoted]
      exact hlater
    · rw [turnsOf_ne hj, ← hfirst hj]
      exact hlater

end Interleaved

end

end EntityAccess.Program
