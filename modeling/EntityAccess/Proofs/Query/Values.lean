import EntityAccess.Proofs.Query.Scope
import EntityAccess.Proofs.Repository.CurrentValues
import EntityAccess.Proofs.Sql.Casts

/-!
# values of plans

What a caller compares with is cast to the type of the column, or fails to be; so the values of a
plan suit their casts, after every change of the plan.

* `suits_of_castFilter`, `suits_of_castWrite` : values that have been cast to the type of a column;
* `typed_of_predicateOf` : the condition of a filter;
* `SelectPlan.Typed` : plans whose values suit their casts;
* `Typed.extend`, `Typed.search`, `Typed.keysetPlan` : one change of a plan.
-/

namespace EntityAccess

open Outcome

/-! ### casts -/

namespace Number

theorem le_of_readDigits {bound n m : Nat} {cs : List Char} (hn : n ≤ bound)
    (h : readDigits bound n cs = .ok m) : m ≤ bound := by
  induction cs generalizing n with
  | nil =>
    obtain rfl : n = m := Except.ok.inj h
    exact hn
  | cons c cs ih =>
    unfold readDigits at h
    split at h
    · cases h
    · split at h
      · cases h
      · next hle => exact ih (Nat.le_of_not_lt hle) h

theorem le_of_readNat {bound m : Nat} {cs : List Char} (h : readNat bound cs = .ok m) :
    m ≤ bound := by
  unfold readNat at h
  split at h
  · cases h
  · cases h
  · exact le_of_readDigits (Nat.zero_le _) h
  · exact le_of_readDigits (Nat.zero_le _) h

/-- a number that is read has 64 bits -/
theorem isSigned64_of_readInt {cs : List Char} {n : Int} (h : readInt cs = some n) :
    isSigned64 n = true := by
  have hread : ∀ {x : Except IntegerFault Nat} {m : Int},
      (do let a ← x.toOption; pure (a : Int)) = some m → ∃ a : Nat, x = .ok a ∧ (a : Int) = m := by
    intro x m hx
    cases x with
    | ok a => exact ⟨a, rfl, Option.some.inj hx⟩
    | error e => cases hx
  unfold readInt at h
  unfold isSigned64
  split at h
  · obtain ⟨m, hm, rfl⟩ := Option.map_eq_some_iff.1 h
    obtain ⟨a, ha, rfl⟩ := hread hm
    have hle := le_of_readDigits (Nat.zero_le _) ha
    exact decide_eq_true (by omega)
  · obtain ⟨m, hm, rfl⟩ := Option.map_eq_some_iff.1 h
    obtain ⟨a, ha, rfl⟩ := hread hm
    have hle := le_of_readNat ha
    exact decide_eq_true (by omega)

end Number

theorem suits_of_castTime {type : String} {kind : ValueKind} {read : String → Option SqlValue}
    (hread : ∀ s x, read s = some x → x.Suits type) {v : Json} {x : SqlValue}
    (h : castTime kind read v = .ok x) : x.Suits type := by
  cases v with
  | str s =>
    unfold castTime at h
    dsimp only at h
    split at h
    · next y hy =>
      obtain rfl := Except.ok.inj h
      exact hread s y hy
    · cases h
  | _ => cases h

/-- a value that has been cast, whatever readers there are for dates and date-times -/
theorem suits_of_castWith {readDate : String → Option Date}
    {readDateTime : String → Option DateTime} {type : ColumnType} {v : Json} {x : SqlValue}
    (h : castWith readDate readDateTime type v = .ok x) : x.Suits type.sqlName := by
  cases type with
  | text =>
    cases v with
    | str s => cases h; exact SqlValue.suits_text _
    | bool b => cases h; exact SqlValue.suits_text _
    | int n => cases h; exact SqlValue.suits_text _
    | float w => cases h; exact SqlValue.suits_text _
    | _ => cases h
  | integer =>
    have hfound := expect_eq_ok.1 h
    cases v with
    | int n =>
      dsimp only at hfound
      split at hfound
      · next hsized =>
        cases hfound
        exact .inr ⟨rfl, hsized⟩
      · cases hfound
    | str s =>
      obtain ⟨n, hn, rfl⟩ := Option.map_eq_some_iff.1 hfound
      exact .inr ⟨rfl, Number.isSigned64_of_readInt hn⟩
    | _ => cases hfound
  | float =>
    have hfound := expect_eq_ok.1 h
    cases v with
    | int n => cases hfound; exact .inr rfl
    | float w => cases hfound; exact .inr rfl
    | str s =>
      obtain ⟨_, _, rfl⟩ := Option.map_eq_some_iff.1 hfound
      exact .inr rfl
    | _ => cases hfound
  | boolean =>
    have hfound := expect_eq_ok.1 h
    cases v with
    | bool b => cases hfound; exact .inr rfl
    | str s =>
      obtain ⟨_, _, rfl⟩ := Option.map_eq_some_iff.1 hfound
      exact .inr rfl
    | _ => cases hfound
  | date =>
    refine suits_of_castTime (fun s x hx => ?_) h
    obtain ⟨_, _, rfl⟩ := Option.map_eq_some_iff.1 hx
    exact .inr rfl
  | dateTime =>
    refine suits_of_castTime (fun s x hx => ?_) h
    obtain ⟨_, _, rfl⟩ := Option.map_eq_some_iff.1 hx
    exact .inr rfl
  | json => cases h; exact .inr rfl
  | searchVector => cases h

theorem suits_of_castFilter {type : ColumnType} {v : Json} {x : SqlValue}
    (h : castFilter type v = .ok x) : x.Suits type.sqlName := by
  unfold castFilter at h
  split at h
  · obtain rfl := Except.ok.inj h
    exact SqlValue.suits_null _
  · exact suits_of_castWith h

theorem suits_of_castWrite {type : ColumnType} {v : Json} {x : SqlValue}
    (h : castWrite type v = .ok x) : x.Suits type.sqlName := by
  unfold castWrite at h
  split at h
  · obtain rfl := Except.ok.inj h
    exact SqlValue.suits_null _
  · exact suits_of_castWith h

theorem suits_of_castDay {v : Json} {x : SqlValue} (h : castDay v = .ok x) : x.Suits "date" := by
  unfold castDay at h
  split at h
  · split at h
    · obtain rfl := Except.ok.inj h
      exact .inr rfl
    · cases h
  · cases h

/-! ### conditions -/

/-- an operand as an operator of this arity takes it -/
def Operand.Fits (type : ColumnType) : Arity → Operand → Prop
  | .scalar, x => ∃ v, x = .value v ∧ v.Suits type.sqlName
  | .list, x => ∃ vs, x = .list vs ∧ ∀ v ∈ vs, v.Suits type.sqlName
  | .date, x => ∃ v, x = .value v ∧ v.Suits "date"
  | .unary, _ => True
  | .pattern, _ => True

theorem fits_of_operandFor {op : Operator} {type : ColumnType} {v : Json} {x : Operand}
    (h : operandFor op type v = .ok x) : x.Fits type op.arity := by
  unfold operandFor at h
  cases harity : op.arity with
  | unary => trivial
  | pattern => trivial
  | scalar =>
    rw [harity] at h
    obtain ⟨y, hy, rfl⟩ := map_eq_ok.1 h
    exact ⟨y, rfl, suits_of_castFilter hy⟩
  | list =>
    rw [harity] at h
    obtain ⟨ys, hys, rfl⟩ := map_eq_ok.1 h
    refine ⟨ys, rfl, fun y hy => ?_⟩
    obtain ⟨item, _, hcast⟩ := exists_of_mem_result hys hy
    exact suits_of_castFilter hcast
  | date =>
    rw [harity] at h
    obtain ⟨y, hy, rfl⟩ := map_eq_ok.1 h
    exact ⟨y, rfl, suits_of_castDay hy⟩

theorem Operator.typed_build {op : Operator} {c : ColumnRef} {x : Operand}
    (h : x.Fits c.type op.arity) : (op.build c x).Typed := by
  cases op <;> first
    | trivial
    | (obtain ⟨v, rfl, hv⟩ := h; exact hv)

theorem typed_of_predicateOf {schema : Schema} {root : Entity} {joins : Joins} {f : Filter}
    {p : Predicate} (h : predicateOf schema root joins f = .ok p) : p.Typed := by
  obtain ⟨c, _, h⟩ := bind_eq_ok.1 h
  obtain ⟨x, hx, h⟩ := bind_eq_ok.1 h
  obtain rfl := Except.ok.inj h
  exact Operator.typed_build (fits_of_operandFor hx)

/-! ### plans -/

namespace SelectPlan

variable {schema : Schema} {plan found : SelectPlan}

/-- a plan whose values suit their casts; so will the key after which its next batch begins -/
structure Typed (plan : SelectPlan) : Prop where
  predicates : ∀ p ∈ plan.predicates, p.Typed
  key : ∀ c, plan.rootColumn primaryKey = .ok c → c.type = .text

theorem typed_ofEntity {e : Entity} (he : e.WellFormed) : (ofEntity e).Typed := by
  refine ⟨List.forall_mem_nil _, fun c hc => ?_⟩
  obtain rfl := Except.ok.inj ((rootColumn_primaryKey he).symm.trans hc)
  rfl

namespace Typed

/-- the same conditions of the same root -/
theorem congr (h : plan.Typed) (hentity : found.entity = plan.entity)
    (hpredicates : found.predicates = plan.predicates) : found.Typed := by
  refine ⟨hpredicates ▸ h.predicates, fun c hc => h.key c ?_⟩
  unfold rootColumn at hc ⊢
  rwa [hentity] at hc

theorem addPredicate (h : plan.Typed) {p : Predicate} (hp : p.Typed) :
    (plan.addPredicate p).Typed := by
  refine ⟨fun q hq => ?_, ?_⟩
  · rcases mem_addPredicate hq with hq | rfl
    · exact h.predicates q hq
    · exact hp
  · obtain ⟨ps, hps⟩ := plan.addPredicate_eq p
    rw [hps]
    exact h.key

theorem addPredicates (h : plan.Typed) {ps : List Predicate} (hps : ∀ p ∈ ps, p.Typed) :
    (plan.addPredicates ps).Typed := by
  refine ⟨fun q hq => (mem_addPredicates hq).elim (h.predicates q) (hps q), ?_⟩
  unfold rootColumn
  rw [entity_addPredicates]
  exact h.key

/-- filters and sort keys, whether or not there is a fault among them -/
theorem extend (h : plan.Typed) (filters : List Filter) (sort : List SortKey)
    (policy : SortPolicy) : (plan.extend schema filters sort policy).1.Typed := by
  unfold SelectPlan.extend
  dsimp only
  split
  · exact h
  · next joins _ =>
    let joined : SelectPlan := { plan with joins := plan.joins.merge joins }
    let built := untilFault (filters.map (predicateOf schema plan.entity joined.joins))
    have hfiltered : (joined.addPredicates built.1).Typed := by
      have hjoined : joined.Typed := h.congr rfl rfl
      refine hjoined.addPredicates fun p hp => ?_
      obtain ⟨f, _, hf⟩ := List.mem_map.1 (mem_of_mem_untilFault hp)
      exact typed_of_predicateOf hf
    split
    · exact hfiltered
    · exact hfiltered.congr (entity_addOrders _ _) (predicates_addOrders _ _)

theorem search (h : plan.Typed) {params : SearchParams} (hsearch : plan.search params = .ok found) :
    found.Typed := by
  unfold SelectPlan.search at hsearch
  dsimp only at hsearch
  split at hsearch
  · obtain rfl := Except.ok.inj hsearch
    exact h
  · obtain ⟨v, _, hsearch⟩ := bind_eq_ok.1 hsearch
    have hmatched : (plan.addPredicate (.textMatch ⟨rootAlias, v.name, .searchVector⟩
        (Text.trim params.text) v.config)).Typed := h.addPredicate trivial
    split at hsearch
    · obtain rfl := Except.ok.inj hsearch
      exact hmatched.congr rfl rfl
    · obtain rfl := Except.ok.inj hsearch
      exact hmatched

theorem window (h : plan.Typed) (limit offset : Option Nat) : (plan.window limit offset).Typed :=
  h.congr rfl rfl

theorem keysetPlan (h : plan.Typed) {after : Option String} {limit : Nat}
    (hkeyset : plan.keysetPlan after limit = .ok found) : found.Typed := by
  obtain ⟨key, hkey, hkeyset⟩ := bind_eq_ok.1 hkeyset
  cases after with
  | none =>
    obtain rfl := Except.ok.inj hkeyset
    exact h.congr rfl rfl
  | some id =>
    have hid : (SqlValue.text id).Suits key.type.sqlName := by
      rw [h.key key hkey]
      exact SqlValue.suits_text id
    have hbounded : (plan.addPredicate (.compare key .gt (.text id))).Typed := h.addPredicate hid
    obtain rfl := Except.ok.inj hkeyset
    exact hbounded.congr rfl rfl

theorem change (h : plan.Typed) (hchange : SelectPlan.Change schema plan found) : found.Typed := by
  cases hchange with
  | extend filters sort policy => exact h.extend filters sort policy
  | search params hsearch => exact h.search hsearch
  | batch after limit hkeyset => exact h.keysetPlan hkeyset
  | window limit offset => exact h.window limit offset

end Typed
end SelectPlan

/-- the plan of filters and sort keys -/
theorem typed_of_planOf {schema : Schema} {e : Entity} (he : e.WellFormed) {filters : Filters}
    {sort : List SortKey} {policy : SortPolicy} {plan : SelectPlan}
    (h : planOf schema e filters sort policy = .ok plan) : plan.Typed := by
  obtain ⟨fs, _, h⟩ := bind_eq_ok.1 h
  have hextend : ((SelectPlan.ofEntity e).extend schema fs sort policy).1.Typed :=
    (SelectPlan.typed_ofEntity he).extend fs sort policy
  rwa [assemble_eq_ok.1 h] at hextend

end EntityAccess
