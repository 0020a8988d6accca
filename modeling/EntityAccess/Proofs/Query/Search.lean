import EntityAccess.Proofs.Query.Repetition
import EntityAccess.Proofs.Query.Scope
import Mathlib.Data.List.TakeWhile

/-!
# searches in place

A search can be made on a plan that is held as a state: it reads the root of the plan, adds a match
and orders by relevance.  Whether it is made or refused, all else stays as it is, and a second
search of the same kind changes nothing.

* `Text.trim_eq_empty_iff` : the texts that are no search;
* `SearchParams.inPlace` : a search that changes the plan which is the state;
* `run_inPlace` : what it leaves is the plan with the search, or the plan before a fault;
* `SearchParams.Matched` : a plan with a match, and ordered by relevance if that is asked for;
* `SearchParams.Ended` : the ways in which a search can end, with the plan that each leaves;
* `matched_addMatch`, `addMatch_again` : a match, and one that is there;
* `searches_once` : every search ends in one of these ways, and a second one changes nothing.
-/

namespace EntityAccess

open Outcome

/-! ### blank texts -/

theorem Text.trimStart_eq_nil_iff {cs : List Char} :
    trimStart cs = [] ↔ ∀ c ∈ cs, isBlank c = true :=
  List.dropWhile_eq_nil_iff

/-- nothing is left of a text exactly if all its characters are blank -/
theorem Text.trim_eq_empty_iff {s : String} :
    trim s = "" ↔ ∀ c ∈ s.toList, isBlank c = true := by
  rw [← trimStart_eq_nil_iff]
  unfold trim trimEnd
  rw [← String.toList_inj, String.toList_ofList]
  refine ⟨fun hnil => ?_, fun hnil => by rw [hnil]; rfl⟩
  by_contra hne
  -- the first character that is kept is not blank, so that it is not dropped from the end either
  have hhead : isBlank ((trimStart s.toList).head hne) = false :=
    List.head_dropWhile_not isBlank hne
  have hall := trimStart_eq_nil_iff.1 (List.reverse_eq_nil_iff.1 hnil)
  rw [hall _ (List.mem_reverse.2 (List.head_mem hne))] at hhead
  cases hhead

/-! ### what a search adds -/

namespace SearchParams

/-- the condition that a vector of the root matches -/
def condition (params : SearchParams) (v : SearchVector) : Predicate :=
  .textMatch ⟨rootAlias, v.name, .searchVector⟩ (Text.trim params.text) v.config

/-- the order by how well a vector of the root matches -/
def rank (params : SearchParams) (v : SearchVector) : OrderTerm :=
  .rank ⟨rootAlias, v.name, .searchVector⟩ (Text.trim params.text) v.config

/-- a plan with a match, the best first if relevance is asked for -/
def addMatch (params : SearchParams) (v : SearchVector) (plan : SelectPlan) : SelectPlan :=
  if params.byRelevance then (plan.addPredicate (params.condition v)).prependOrder (params.rank v)
  else plan.addPredicate (params.condition v)

/-- a search of the plan that is the state -/
def inPlace (params : SearchParams) : ExceptT Error (StateM SelectPlan) Unit := do
  if Text.trim params.text = "" then return
  let plan ← get
  let v ← (ExceptT.mk (pure (plan.entity.resolveVector params.vector)))
  modify (·.addPredicate (params.condition v))
  if params.byRelevance then modify (·.prependOrder (params.rank v))

/-- all characters are blank -/
def Blank (params : SearchParams) : Prop := ∀ c ∈ params.text.toList, Text.isBlank c = true

/-- the vector that is named, or the first one -/
def Selects (params : SearchParams) (e : Entity) (v : SearchVector) : Prop :=
  v ∈ e.searchVectors ∧ (params.vector = some v.name ∨
    params.vector = none ∧ e.searchVectors.head? = some v)

/-- the plan with a match of a vector: one condition more, unless it was there, and on demand an
order by relevance before all others and in the place of others by relevance -/
structure Matched (params : SearchParams) (v : SearchVector) (plan found : SelectPlan) : Prop where
  predicates : params.condition v ∈ plan.predicates ∧ found.predicates = plan.predicates ∨
    params.condition v ∉ plan.predicates ∧
      found.predicates = plan.predicates ++ [params.condition v]
  order : found.order = if params.byRelevance = true
    then params.rank v :: plan.order.filter (!·.isRank) else plan.order
  rest : found = { plan with predicates := found.predicates, order := found.order }

/-- the end of a search, and the plan that it leaves -/
inductive Ended (params : SearchParams) (plan : SelectPlan) :
    Except Error Unit → SelectPlan → Prop where
  | blank (text : params.Blank) : Ended params plan (.ok ()) plan
  | unknown {name : String} (text : ¬ params.Blank) (vector : params.vector = some name)
      (absent : ∀ v ∈ plan.entity.searchVectors, v.name ≠ name) :
      Ended params plan (.error (.unknownField name plan.entity.name)) plan
  | missing (text : ¬ params.Blank) (vector : params.vector = none)
      (absent : plan.entity.searchVectors = []) :
      Ended params plan (.error (.badRequest (.noSearchVector plan.entity.name))) plan
  | matched {v : SearchVector} {found : SelectPlan} (text : ¬ params.Blank)
      (vector : params.Selects plan.entity v) (found_eq : params.Matched v plan found) :
      Ended params plan (.ok ()) found

variable {params : SearchParams} {v : SearchVector} {plan found : SelectPlan}

theorem trim_eq_empty : Text.trim params.text = "" ↔ params.Blank := Text.trim_eq_empty_iff

/-- a search of a text that is not blank -/
theorem search_eq (htext : ¬ params.Blank) (plan : SelectPlan) :
    plan.search params =
      (plan.entity.resolveVector params.vector).map fun v => params.addMatch v plan := by
  unfold SelectPlan.search
  dsimp only
  rw [if_neg (mt trim_eq_empty.1 htext)]
  cases plan.entity.resolveVector params.vector with
  | error fault => rfl
  | ok v => rfl

/-- a search in place leaves the plan with the search, and the plan as it was before a fault -/
theorem run_inPlace (params : SearchParams) (plan : SelectPlan) :
    params.inPlace.run plan =
      match plan.search params with
      | .ok found => (.ok (), found)
      | .error fault => (.error fault, plan) := by
  unfold inPlace
  by_cases htext : params.Blank
  · rw [plan.search_of_blank (trim_eq_empty.2 htext), if_pos (trim_eq_empty.2 htext)]
    rfl
  · rw [search_eq htext, if_neg (mt trim_eq_empty.1 htext)]
    -- the plan that is read is the state
    change (ExceptT.mk (pure (plan.entity.resolveVector params.vector)) >>= _ :
      ExceptT Error (StateM SelectPlan) Unit).run plan = _
    cases plan.entity.resolveVector params.vector with
    | error fault => rfl
    | ok v =>
      change _ = (Except.ok (), params.addMatch v plan)
      unfold addMatch
      cases params.byRelevance with
      | false => rfl
      | true => rfl

/-! ### a vector that is found, or a fault -/

theorem resolveVector_cases (params : SearchParams) (e : Entity) :
    (∃ v, params.Selects e v ∧ e.resolveVector params.vector = .ok v) ∨
      (∃ name, params.vector = some name ∧ (∀ v ∈ e.searchVectors, v.name ≠ name) ∧
        e.resolveVector params.vector = .error (.unknownField name e.name)) ∨
      params.vector = none ∧ e.searchVectors = [] ∧
        e.resolveVector params.vector = .error (.badRequest (.noSearchVector e.name)) := by
  cases hvector : params.vector with
  | some name =>
    cases hfound : e.searchVector? name with
    | some v =>
      have hname : v.name = name := by simpa using List.find?_some hfound
      refine .inl ⟨v, ⟨List.mem_of_find?_eq_some hfound, .inl (hname ▸ hvector)⟩, ?_⟩
      rw [Entity.resolveVector, hfound]
    | none =>
      refine .inr (.inl ⟨name, rfl, fun v hv => ?_, by rw [Entity.resolveVector, hfound]⟩)
      simpa using List.find?_eq_none.1 hfound v hv
  | none =>
    cases hvectors : e.searchVectors with
    | cons v vs =>
      refine .inl ⟨v, ⟨hvectors ▸ List.mem_cons_self, .inr ⟨hvector, by rw [hvectors]; rfl⟩⟩, ?_⟩
      rw [Entity.resolveVector, hvectors]
    | nil => exact .inr (.inr ⟨rfl, rfl, by rw [Entity.resolveVector, hvectors]⟩)

/-! ### matches and orders by relevance that are there -/

/-- a match is the same as itself and as nothing else -/
theorem hasPredicate_condition :
    plan.hasPredicate (params.condition v) = true ↔ params.condition v ∈ plan.predicates := by
  unfold SelectPlan.hasPredicate
  rw [List.any_eq_true]
  refine ⟨?_, fun h => ⟨_, h, Predicate.same_self_iff.2 rfl⟩⟩
  rintro ⟨p, hp, hsame⟩
  cases p with
  | textMatch c query config =>
    simp only [condition, Predicate.same, Bool.and_eq_true, beq_iff_eq] at hsame
    obtain ⟨⟨rfl, rfl⟩, rfl⟩ := hsame
    exact hp
  | _ => cases hsame

theorem sameTarget_rank (t : OrderTerm) : t.sameTarget (params.rank v) = t.isRank := by
  cases t <;> rfl

theorem prependOrder_rank : plan.prependOrder (params.rank v) =
    { plan with order := params.rank v :: plan.order.filter (!·.isRank) } := by
  unfold SelectPlan.prependOrder
  simp only [sameTarget_rank]

/-- an order by relevance that is the first one is put there again -/
theorem prependOrder_again :
    (plan.prependOrder (params.rank v)).prependOrder (params.rank v) =
      plan.prependOrder (params.rank v) := by
  simp only [prependOrder_rank]
  rw [List.filter_cons_of_neg (by simp [rank, OrderTerm.isRank]), List.filter_filter]
  simp only [Bool.and_self]

theorem matched_addMatch (params : SearchParams) (v : SearchVector) (plan : SelectPlan) :
    params.Matched v plan (params.addMatch v plan) := by
  -- the plan with the condition
  obtain ⟨ps, hps, hcases⟩ : ∃ ps, plan.addPredicate (params.condition v) =
      { plan with predicates := ps } ∧
      (params.condition v ∈ plan.predicates ∧ ps = plan.predicates ∨
        params.condition v ∉ plan.predicates ∧ ps = plan.predicates ++ [params.condition v]) := by
    by_cases hthere : params.condition v ∈ plan.predicates
    · exact ⟨_, SelectPlan.addPredicate_of_mem (hasPredicate_condition.2 hthere),
        .inl ⟨hthere, rfl⟩⟩
    · exact ⟨_, if_neg (mt hasPredicate_condition.1 hthere), .inr ⟨hthere, rfl⟩⟩
  have horder : ∀ b, params.byRelevance = b → params.addMatch v plan =
      { plan with
        predicates := ps
        order :=
          if b = true then params.rank v :: plan.order.filter (!·.isRank) else plan.order } := by
    rintro b hb
    rw [addMatch, hb, hps, prependOrder_rank]
    cases b with
    | false => rfl
    | true => rfl
  rw [horder _ rfl]
  exact ⟨hcases, rfl, rfl⟩

/-- a match that has been added is there -/
theorem addMatch_again :
    params.addMatch v (params.addMatch v plan) = params.addMatch v plan := by
  have hthere : (params.addMatch v plan).hasPredicate (params.condition v) = true := by
    have hadded : (plan.addPredicate (params.condition v)).hasPredicate (params.condition v) =
      true := SelectPlan.hasPredicate_addPredicate_self rfl
    unfold addMatch
    split
    · exact hadded
    · exact hadded
  rw [addMatch, SelectPlan.addPredicate_of_mem hthere]
  unfold addMatch
  cases params.byRelevance with
  | false => rfl
  | true => exact prependOrder_again

end SearchParams

open SearchParams

/-- a search leaves the plan as it is if its text is blank, and also if there is no such vector or
none at all; else it adds the match and the order, and nothing else; after it the same search ends
the same way and changes nothing -/
theorem searches_once (plan : SelectPlan) (params : SearchParams) :
    ∃ (result : Except Error Unit) (found : SelectPlan),
      params.inPlace.run plan = (result, found) ∧ params.Ended plan result found ∧
      params.inPlace.run found = (result, found) := by
  simp only [run_inPlace]
  by_cases htext : params.Blank
  · have hsearch : plan.search params = .ok plan := plan.search_of_blank (trim_eq_empty.2 htext)
    exact ⟨_, _, by rw [hsearch], .blank htext, by rw [hsearch]⟩
  · simp only [search_eq htext]
    rcases params.resolveVector_cases plan.entity with
      ⟨v, hv, hfound⟩ | ⟨name, hname, habsent, hfault⟩ | ⟨hname, habsent, hfault⟩
    · have hmatched := params.matched_addMatch v plan
      refine ⟨.ok (), params.addMatch v plan, by rw [hfound]; rfl, .matched htext hv hmatched, ?_⟩
      have hentity : (params.addMatch v plan).entity = plan.entity :=
        (congrArg SelectPlan.entity hmatched.rest).trans rfl
      rw [hentity, hfound]
      exact congrArg _ addMatch_again
    · refine ⟨_, _, by rw [hfault]; rfl, .unknown htext hname habsent, by rw [hfault]; rfl⟩
    · refine ⟨_, _, by rw [hfault]; rfl, .missing htext hname habsent, by rw [hfault]; rfl⟩

end EntityAccess
