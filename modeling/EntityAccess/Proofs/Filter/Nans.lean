import EntityAccess.Proofs.Query.Values

/-!
# values that are not the same as themselves

A NaN is the same as nothing, itself included, and so is a condition that compares with one.  No
arithmetic makes a NaN: a filter has one only if a text of its value spells it, for a column of
doubles and with an operator that casts its value.

* `Binary64.ofRatio_ne_nan`, `Binary64.ofDecimal_ne_nan` : rounding makes no NaN;
* `Number.readDouble_eq_nan`, `castFilter_eq_nan` : the texts that become one;
* `Predicate.same_self_iff` : the conditions that are the same as themselves;
* `hasNan_of_predicateOf` : the filters whose conditions are not.
-/

namespace EntityAccess

open Outcome

/-! ### texts that spell a NaN -/

namespace Binary64

theorem make_ne_nan (negative : Bool) (m p : Nat) : make negative m p ≠ .nan := by
  unfold make
  split <;> exact Binary64.noConfusion

theorem ofRatio_ne_nan (negative : Bool) (num den : Nat) : ofRatio negative num den ≠ .nan := by
  unfold ofRatio
  dsimp only
  split
  · exact make_ne_nan _ _ _
  · exact make_ne_nan _ _ _

theorem ofDecimal_ne_nan (negative : Bool) (digits : Nat) (exponent : Int) :
    ofDecimal negative digits exponent ≠ .nan := by
  unfold ofDecimal
  dsimp only
  split
  · exact Binary64.noConfusion
  · split
    · exact Binary64.noConfusion
    · cases exponent with
      | ofNat e => exact ofRatio_ne_nan _ _ _
      | negSucc e => exact ofRatio_ne_nan _ _ _

end Binary64

namespace Number

/-- `nan` in any case -/
def IsNanWord (cs : List Char) : Prop := cs.map Char.toLower = ['n', 'a', 'n']

theorem readDecimal_ne_nan (negative : Bool) (cs : List Char) :
    readDecimal negative cs ≠ some .nan := by
  have hparts : ∀ (whole : List Char) (parts : List Char × List Char),
      (if whole = [] ∧ parts.1 = [] then none
        else (readExponent parts.2).map fun e =>
          Binary64.ofDecimal negative (ofDigits (whole ++ parts.1)) (e - parts.1.length)) ≠
        some .nan := by
    intro whole parts h
    split at h
    · cases h
    · obtain ⟨e, _, he⟩ := Option.map_eq_some_iff.1 h
      exact Binary64.ofDecimal_ne_nan _ _ _ he
  exact hparts (spanDigits cs).1 _

theorem readMagnitude_eq_nan {negative : Bool} {cs : List Char} :
    readMagnitude negative cs = some .nan ↔ IsNanWord cs := by
  unfold readMagnitude IsNanWord
  dsimp only
  by_cases hinf : cs.map Char.toLower = ['i', 'n', 'f'] ∨
      cs.map Char.toLower = ['i', 'n', 'f', 'i', 'n', 'i', 't', 'y']
  · rw [if_pos hinf]
    rcases hinf with h | h <;> simp [h]
  · rw [if_neg hinf]
    by_cases hnan : cs.map Char.toLower = ['n', 'a', 'n']
    · simp [hnan]
    · simp [hnan, readDecimal_ne_nan]

/-- `nan` in any case, with a sign or without -/
def SpellsNan (cs : List Char) : Prop :=
  ∃ word, IsNanWord word ∧ (cs = word ∨ cs = '+' :: word ∨ cs = '-' :: word)

/-- a word has no sign of its own -/
theorem spellsNan_cons {sign : Char} (hsign : sign = '+' ∨ sign = '-') {cs : List Char} :
    SpellsNan (sign :: cs) ↔ IsNanWord cs := by
  constructor
  · rintro ⟨word, hword, rfl | h | h⟩
    · have hfirst : sign.toLower = 'n' := (List.cons.inj hword).1
      rcases hsign with rfl | rfl <;> exact absurd hfirst (by decide)
    · exact (List.cons.inj h).2 ▸ hword
    · exact (List.cons.inj h).2 ▸ hword
  · intro h
    rcases hsign with rfl | rfl
    · exact ⟨cs, h, .inr (.inl rfl)⟩
    · exact ⟨cs, h, .inr (.inr rfl)⟩

theorem readDouble_eq_nan {cs : List Char} : readDouble cs = some .nan ↔ SpellsNan cs := by
  unfold readDouble
  split
  · rw [readMagnitude_eq_nan, spellsNan_cons (.inr rfl)]
  · rw [readMagnitude_eq_nan, spellsNan_cons (.inl rfl)]
  · next hminus hplus =>
    rw [readMagnitude_eq_nan]
    constructor
    · exact fun h => ⟨cs, h, .inl rfl⟩
    · rintro ⟨word, hword, rfl | rfl | rfl⟩
      · exact hword
      · exact absurd rfl (hplus word)
      · exact absurd rfl (hminus word)

end Number

/-! ### values -/

namespace SqlValue

def isNan : SqlValue → Bool
  | .float .nan => true
  | _ => false

theorem isNan_iff {v : SqlValue} : v.isNan = true ↔ v = .float .nan := by
  cases v with
  | float x => cases x <;> simp [isNan]
  | _ => simp [isNan]

/-- exactly a NaN differs from itself -/
theorem same_self_iff {v : SqlValue} : v.same v = true ↔ v.isNan = false := by
  rw [← Bool.not_eq_true, isNan_iff]
  constructor
  · rintro h rfl
    cases h
  · exact same_self

end SqlValue

/-- a value that spells a NaN -/
def Json.SpellsNan (v : Json) : Prop :=
  ∃ s, v = .str s ∧ Number.SpellsNan (Text.trim s).toList

theorem castFloat_eq_nan {v : Json} : castFloat v = .ok (.float .nan) ↔ v.SpellsNan := by
  unfold castFloat Json.SpellsNan
  rw [expect_eq_ok]
  cases v with
  | int n => simpa [Binary64.ofInt] using Binary64.ofRatio_ne_nan _ _ _
  | str s => simp [Number.readDouble_eq_nan]
  | _ => simp

/-- a value becomes a NaN if it spells one and is cast to a double -/
theorem castFilter_eq_nan {type : ColumnType} {v : Json} :
    castFilter type v = .ok (.float .nan) ↔ type = .float ∧ v.SpellsNan := by
  have hdouble : castFilter .float v = .ok (.float .nan) ↔ v.SpellsNan := by
    unfold castFilter
    split
    · next hnull =>
      cases v with
      | null => simp [Json.SpellsNan]
      | _ => cases hnull
    · exact castFloat_eq_nan
  constructor
  · intro h
    obtain rfl : type = .float := by
      rcases suits_of_castFilter h with hnull | hname
      · cases hnull
      · revert hname
        cases type <;> simp [SqlValue.IsOf, ColumnType.sqlName]
    exact ⟨rfl, hdouble.1 h⟩
  · rintro ⟨rfl, h⟩
    exact hdouble.2 h

/-! ### conditions -/

theorem sameValues_self_iff {vs : List SqlValue} :
    sameValues vs vs = true ↔ vs.any SqlValue.isNan = false := by
  induction vs with
  | nil => simp [sameValues]
  | cons v vs ih => simp [sameValues, SqlValue.same_self_iff, ih]

namespace Predicate

/-- the values that a condition compares with -/
def values : Predicate → List SqlValue
  | .compare _ _ v => [v]
  | .compareDay _ _ v => [v]
  | .list _ vs _ => vs
  | .like _ _ _ _ => []
  | .null _ _ => []
  | .textMatch _ _ _ => []

/-- a condition that compares with a NaN -/
def hasNan (p : Predicate) : Bool := p.values.any SqlValue.isNan

/-- a condition is the same as itself unless it compares with a NaN -/
theorem same_self_iff {p : Predicate} : p.same p = true ↔ p.hasNan = false := by
  cases p with
  | compare c o v => simp [same, hasNan, values, SqlValue.same_self_iff]
  | compareDay c o v => simp [same, hasNan, values, SqlValue.same_self_iff]
  | list c vs m => simp [same, hasNan, values, sameValues_self_iff]
  | _ => simp [same, hasNan, values]

end Predicate

/-- a NaN differs from every value -/
theorem SqlValue.not_same_of_isNan {v : SqlValue} (h : v.isNan = true) (w : SqlValue) :
    w.same v = false := by
  obtain rfl := isNan_iff.1 h
  cases w with
  | float x => cases x <;> rfl
  | _ => rfl

theorem not_sameValues_of_any_isNan {vs : List SqlValue} (h : vs.any SqlValue.isNan = true)
    (ws : List SqlValue) : sameValues ws vs = false := by
  induction vs generalizing ws with
  | nil => cases h
  | cons v vs ih =>
    cases ws with
    | nil => rfl
    | cons w ws =>
      rw [List.any_cons, Bool.or_eq_true] at h
      unfold sameValues
      rcases h with h | h
      · rw [SqlValue.not_same_of_isNan h, Bool.false_and]
      · rw [ih h, Bool.and_false]

/-- a condition that compares with a NaN is the same as no other either -/
theorem Predicate.not_same_of_hasNan {p : Predicate} (h : p.hasNan = true) (q : Predicate) :
    q.same p = false := by
  cases p with
  | compare c o v =>
    have hv : v.isNan = true := by simpa [hasNan, values] using h
    cases q <;> simp [same, SqlValue.not_same_of_isNan hv]
  | compareDay c o v =>
    have hv : v.isNan = true := by simpa [hasNan, values] using h
    cases q <;> simp [same, SqlValue.not_same_of_isNan hv]
  | list c vs m =>
    have hvs : vs.any SqlValue.isNan = true := h
    cases q <;> simp [same, not_sameValues_of_any_isNan hvs]
  | _ => cases h

/-! ### filters -/

theorem Operator.values_build (op : Operator) (c : ColumnRef) (x : Operand) :
    (op.build c x).values = match op.arity with
      | .scalar | .date => [x.toValue]
      | .list => x.toList
      | .unary | .pattern => [] := by
  cases op <;> rfl

/-- a filter whose condition compares with a NaN if its column has this type -/
def Filter.ComparesNan (f : Filter) (type : ColumnType) : Prop :=
  type = .float ∧ match f.key.operator.arity with
    | .scalar => f.value.SpellsNan
    | .list => ∃ item ∈ listItems f.value, item.SpellsNan
    | .unary | .pattern | .date => False

theorem Filter.hasNan_build {f : Filter} {c : ColumnRef} {x : Operand}
    (h : operandFor f.key.operator c.type f.value = .ok x) :
    (f.key.operator.build c x).hasNan = true ↔ f.ComparesNan c.type := by
  unfold operandFor at h
  unfold Predicate.hasNan ComparesNan
  rw [Operator.values_build]
  cases harity : f.key.operator.arity with
  | unary => simp
  | pattern => simp
  | scalar =>
    rw [harity] at h
    obtain ⟨v, hv, rfl⟩ := map_eq_ok.1 h
    simp only [Operand.toValue, List.any_cons, List.any_nil, Bool.or_false, SqlValue.isNan_iff]
    rw [← castFilter_eq_nan, hv, Except.ok.injEq]
  | list =>
    rw [harity] at h
    obtain ⟨vs, hvs, rfl⟩ := map_eq_ok.1 h
    simp only [Operand.toList, List.any_eq_true, SqlValue.isNan_iff, exists_eq_right]
    constructor
    · intro hnan
      obtain ⟨item, hitem, hcast⟩ := exists_of_mem_result hvs hnan
      obtain ⟨htype, hspells⟩ := castFilter_eq_nan.1 hcast
      exact ⟨htype, item, hitem, hspells⟩
    · rintro ⟨htype, item, hitem, hspells⟩
      obtain ⟨v, hv, hcast⟩ := exists_of_mem hvs hitem
      rw [castFilter_eq_nan.2 ⟨htype, hspells⟩] at hcast
      exact Except.ok.inj hcast ▸ hv
  | date =>
    rw [harity] at h
    obtain ⟨v, hv, rfl⟩ := map_eq_ok.1 h
    have hday : v ≠ .float .nan := by
      rintro rfl
      simpa [SqlValue.Suits, SqlValue.IsOf, SqlValue.isNull] using suits_of_castDay hv
    simpa [Operand.toValue, SqlValue.isNan_iff] using hday

/-- the condition of a filter compares with a NaN if the filter does -/
theorem hasNan_of_predicateOf {schema : Schema} {root : Entity} {joins : Joins} {f : Filter}
    {p : Predicate} (h : predicateOf schema root joins f = .ok p) :
    p.hasNan = true ↔ ∃ c, columnRef schema root joins f.key.path f.key.field = .ok c ∧
      f.ComparesNan c.type := by
  obtain ⟨c, hc, h⟩ := bind_eq_ok.1 h
  obtain ⟨x, hx, h⟩ := bind_eq_ok.1 h
  obtain rfl := Except.ok.inj h
  rw [f.hasNan_build hx, hc]
  simp

end EntityAccess
