import EntityAccess.Number.Reading
import EntityAccess.Proofs.Sql.Buffers
import EntityAccess.Proofs.Sql.Renderings

/-!
# values and the casts of their placeholders

Behind a placeholder stands the name of the type that its value is cast to.  A statement is well
typed if each of its values is null or of the type that is named there.

* `Sql.castOf` : the type that is named behind a placeholder;
* `SqlValue.IsOf`, `SqlValue.Suits` : values of a type, and values that can be cast to it;
* `Fragment.Typed`, `castOf_of_typed` : fragments all of whose values suit their casts;
* `Sql.Buffer.placeholders`, `Statement.MatchesCasts` : the numbers and the casts that are read off
  the text that is sent;
* `Predicate.Typed`, `typed_select`, … : statements that are well typed.
-/

namespace EntityAccess

/-! ### types of values -/

/-- a value of the type of that name -/
def SqlValue.IsOf (type : String) : SqlValue → Prop
  | .null => False
  | .text _ => type = "text" ∨ type = "regconfig"
  | .int n => type = "bigint" ∧ Number.isSigned64 n = true
  | .float _ => type = "double precision"
  | .bool _ => type = "boolean"
  | .date _ => type = "date"
  | .dateTime _ => type = "timestamp"
  | .json _ => type = "jsonb"

/-- null, or a value of the type -/
def SqlValue.Suits (v : SqlValue) (type : String) : Prop := v.isNull = true ∨ v.IsOf type

theorem SqlValue.suits_null (type : String) : SqlValue.null.Suits type := .inl rfl

theorem SqlValue.suits_text (s : String) : (SqlValue.text s).Suits "text" := by
  simp [Suits, IsOf]

theorem SqlValue.suits_config (s : String) : (SqlValue.text s).Suits "regconfig" := by
  simp [Suits, IsOf]

namespace Sql

open Fragment

/-- the types that values are cast to -/
def castTypes : List String :=
  ["text", "bigint", "double precision", "boolean", "date", "timestamp", "jsonb", "tsvector",
    "regconfig"]

/-- the tokens begin with these characters, outside of quotes -/
def beginWith : List Char → List Token → Bool
  | [], _ => true
  | _ :: _, [] => false
  | c :: cs, t :: ts => t.is c && beginWith cs ts

/-- the type that is named behind a placeholder; no name begins another one -/
def castBehind (ts : List Token) : Option String :=
  castTypes.find? fun type => beginWith (Text.concat ["::", type]).toList ts

/-- the type that the value of placeholder number `n` is cast to -/
def castOf (n : Nat) : List Token → Option String
  | [] => none
  | t :: ts => if t.place? = some n then castBehind ts else castOf n ts

/-- the value has a cast to one of the types, which it suits -/
def Piece.Typed : Piece → Prop
  | .text _ => True
  | .param v type => ∃ name ∈ castTypes, type = some name ∧ v.Suits name

namespace Fragment

/-- every value has a cast, and suits it -/
def Typed (f : Fragment) : Prop := ∀ p ∈ f, p.Typed

namespace Typed

theorem nil : Typed [] := List.forall_mem_nil _

theorem sql (parts : List String) : Typed (Sql.sql parts) := by
  simp [Typed, Sql.sql, Piece.Typed]

theorem bound {v : SqlValue} {type : String} (ht : type ∈ castTypes) (hv : v.Suits type) :
    Typed (Sql.bound v type) := by
  simpa [Typed, Sql.bound, Piece.Typed] using ⟨ht, hv⟩

theorem append {f g : Fragment} (hf : Typed f) (hg : Typed g) : Typed (f ++ g) :=
  List.forall_mem_append.2 ⟨hf, hg⟩

theorem joinWith {separator : String} {fs : List Fragment} (h : ∀ f ∈ fs, Typed f) :
    Typed (Fragment.joinWith separator fs) := by
  induction fs with
  | nil => exact .nil
  | cons f fs ih =>
    obtain ⟨hf, hfs⟩ := List.forall_mem_cons.1 h
    cases fs with
    | nil => exact hf
    | cons g fs => exact hf.append (List.forall_mem_cons.2 ⟨trivial, ih hfs⟩)

end Typed
end Fragment

/-! ### casts in the text -/

theorem castOf_append {ts : List Token} (h : ∀ t ∈ ts, t.isText = true) (n : Nat)
    (us : List Token) : castOf n (ts ++ us) = castOf n us := by
  induction ts with
  | nil => rfl
  | cons t ts ih =>
    obtain ⟨ht, hts⟩ := List.forall_mem_cons.1 h
    simp [castOf, Token.place?_of_isText ht, ih hts]

/-- a cast is found behind its placeholder, whatever follows -/
theorem castBehind_tokens {type : String} (h : type ∈ castTypes) (ts : List Token) :
    castBehind (tokens (Text.concat ["::", type]) ++ ts) = some type := by
  simp only [castTypes, List.mem_cons, List.not_mem_nil, or_false] at h
  rcases h with rfl | rfl | rfl | rfl | rfl | rfl | rfl | rfl | rfl <;> rfl

/-- each value suits the cast that stands behind its placeholder -/
theorem castOf_of_typed {marks : List (Char × Char)} {f : Fragment} (h : Legible marks f)
    (ht : f.Typed) {k : Nat} {v : SqlValue} (hv : f.params[k]? = some v) :
    ∃ type, castOf (k + 1) (tokens f.text) = some type ∧ v.Suits type := by
  have hfound : ∀ n : Nat, ∃ type, castOf (n + k) (numbered n f) = some type ∧ v.Suits type := by
    induction h generalizing k with
    | nil => simp [params] at hv
    | text hs _ ih =>
      intro n
      rw [numbered, castOf_append hs.text]
      exact ih (List.forall_mem_cons.1 ht).2 hv n
    | @cast w type f hs hf ih =>
      intro n
      obtain ⟨⟨name, hname, heq, hsuits⟩, hrest⟩ := List.forall_mem_cons.1 ht
      obtain rfl := Option.some.inj heq
      cases k with
      | zero =>
        obtain rfl : w = v := by simpa [params] using hv
        have hhere : castOf (n + 0) (numbered n (.param w (some type) :: f)) =
            castBehind (tokens (Text.concat ["::", type]) ++ numbered (n + 1) f) := by
          simp [numbered, castOf, Token.place?]
        exact ⟨type, by rw [hhere, castBehind_tokens hname], hsuits⟩
      | succ k =>
        obtain ⟨found, hfound, hsuits⟩ := ih hrest (by simpa [params] using hv) (n + 1)
        refine ⟨found, ?_, hsuits⟩
        have hskip : castOf (n + (k + 1)) (numbered n (.param w (some type) :: f)) =
            castOf (n + (k + 1)) (tokens (Text.concat ["::", type]) ++ numbered (n + 1) f) := by
          simp [numbered, castOf, Token.place?]
        rw [hskip, castOf_append hs.text, show n + (k + 1) = n + 1 + k by omega]
        exact hfound
    | bare _ _ _ =>
      obtain ⟨⟨name, _, heq, _⟩, _⟩ := List.forall_mem_cons.1 ht
      cases heq
  rw [h.tokens_text, Nat.add_comm k 1]
  exact hfound 1

/-! ### conditions -/

theorem sqlName_mem_castTypes (type : ColumnType) : type.sqlName ∈ castTypes := by
  cases type <;> decide

end Sql

/-- the values of a condition suit what they are compared with -/
def Predicate.Typed : Predicate → Prop
  | .compare c _ v => v.Suits c.type.sqlName
  | .compareDay _ _ v => v.Suits "date"
  | .like _ _ _ _ => True
  | .null _ _ => True
  | .list c values _ => ∀ v ∈ values, v.Suits c.type.sqlName
  | .textMatch _ _ _ => True

namespace Sql

open Fragment

theorem typed_tsquery (query config : String) : Typed (tsquery query config) :=
  ((((Typed.sql _).append (.bound (by decide) (SqlValue.suits_config config))).append
    (.sql _)).append (.bound (by decide) (SqlValue.suits_text query))).append (.sql _)

theorem typed_condition {p : Predicate} (h : p.Typed) : Typed (condition p) := by
  cases p with
  | compare c op v =>
    rw [condition]
    split
    · cases op <;> exact .sql _
    · exact .append (.sql _) (.bound (sqlName_mem_castTypes _) h)
  | compareDay c op v => exact .append (.sql _) (.bound (by decide) h)
  | like c pattern ignoreCase negated =>
    exact .append (.sql _) (.bound (by decide) (SqlValue.suits_text pattern))
  | null c negated => exact .sql _
  | list c values mode =>
    have hitems : Typed (boundList c.type.sqlName values) := by
      refine .joinWith fun f hf => ?_
      obtain ⟨v, hv, rfl⟩ := List.mem_map.1 hf
      exact .bound (sqlName_mem_castTypes _) (h v hv)
    rw [condition]
    split
    · cases mode <;> exact .sql _
    · cases mode <;> exact .append (.append (.sql _) hitems) (.sql _)
  | textMatch v query config => exact .append (.sql _) (typed_tsquery query config)

theorem typed_whereClause {ps : List Predicate} (h : ∀ p ∈ ps, p.Typed) :
    Typed (whereClause ps) := by
  unfold whereClause
  split
  · exact .nil
  · refine .append (.sql _) (.joinWith fun f hf => ?_)
    obtain ⟨p, hp, rfl⟩ := List.mem_map.1 hf
    exact typed_condition (h p hp)

/-! ### reads -/

theorem typed_orderClause {terms : List Fragment} (h : ∀ f ∈ terms, Typed f) :
    Typed (orderClause terms) := by
  unfold orderClause
  split
  · exact .nil
  · exact .append (.sql _) (.joinWith h)

theorem typed_orderTerm (t : OrderTerm) : Typed (orderTerm t) := by
  cases t with
  | column c descending => exact .sql _
  | rank v query config => exact ((Typed.sql _).append (typed_tsquery query config)).append (.sql _)

theorem typed_groupKey (t : OrderTerm) : Typed (groupKey t) := by
  cases t with
  | column c descending =>
    rw [groupKey]
    split <;> exact .sql _
  | rank v query config => exact ((Typed.sql _).append (typed_tsquery query config)).append (.sql _)

section

variable {schema : Schema} {plan : SelectPlan} (h : ∀ p ∈ plan.predicates, p.Typed)

include h

theorem typed_flatSelect : Typed (flatSelect schema plan) := by
  refine (((Typed.sql _).append (typed_whereClause h)).append
    (typed_orderClause fun f hf => ?_)).append (.sql _)
  obtain ⟨t, _, rfl⟩ := List.mem_map.1 hf
  exact typed_orderTerm t

theorem typed_groupedSelect : Typed (groupedSelect schema plan) := by
  have hkeys : Typed (pageKeys plan) := by
    refine .joinWith fun f hf => ?_
    rcases List.mem_cons.1 hf with rfl | hf
    · exact .sql _
    · obtain ⟨⟨t, i⟩, _, rfl⟩ := List.mem_map.1 hf
      exact (typed_groupKey t).append (.sql _)
  have htail : Typed (pageTail plan) := by
    refine ((Typed.sql _).append (typed_orderClause fun f hf => ?_)).append (.sql _)
    obtain ⟨⟨t, i⟩, _, rfl⟩ := List.mem_map.1 hf
    exact .sql _
  have horder : Typed (groupOrder plan) := by
    refine typed_orderClause fun f hf => ?_
    obtain ⟨⟨t, i⟩, _, rfl⟩ := List.mem_map.1 hf
    exact .sql _
  have hpage : Typed (pageSelect schema plan) := by
    rw [pageSelect_eq]
    exact ((((Typed.sql _).append hkeys).append (.sql _)).append (typed_whereClause h)).append htail
  exact (((Typed.sql _).append hpage).append (.sql _)).append horder

theorem typed_select : Typed (select schema plan) := by
  unfold select
  split
  · exact typed_groupedSelect h
  · exact typed_flatSelect h

theorem typed_count : Typed (count schema plan) := .append (.sql _) (typed_whereClause h)

end

/-! ### statements of single rows -/

theorem typed_text (s : String) : Typed (bound (.text s) "text") :=
  .bound (by decide) (SqlValue.suits_text s)

/-- values that suit the columns they are assigned to -/
def AssignmentsSuit (e : Entity) (values : Assignments) : Prop :=
  ∀ a ∈ values, a.2.Suits (e.columnType a.1).sqlName

theorem typed_boundFor {e : Entity} {column : String} {v : SqlValue}
    (h : v.Suits (e.columnType column).sqlName) : Typed (boundFor e column v) :=
  .bound (sqlName_mem_castTypes _) h

theorem typed_insert {e : Entity} {values : Assignments} (h : AssignmentsSuit e values) :
    Typed (insert e values) := by
  refine .append (.append (.sql _) (.joinWith fun f hf => ?_)) (.sql _)
  obtain ⟨a, ha, rfl⟩ := List.mem_map.1 hf
  exact typed_boundFor (h a ha)

theorem typed_update {e : Entity} (id : String) {values : Assignments}
    (h : AssignmentsSuit e values) : Typed (update e id values) := by
  refine .append (.append (.append (.sql _) (.joinWith fun f hf => ?_)) (.sql _)) (typed_text id)
  rcases List.mem_append.1 hf with hf | hf
  · obtain ⟨a, ha, rfl⟩ := List.mem_map.1 hf
    exact .append (.sql _) (typed_boundFor (h a ha))
  · unfold stampClauses at hf
    split at hf
    · obtain rfl := List.mem_singleton.1 hf
      exact .sql _
    · cases hf

theorem typed_relatedRows {e : Entity} {column : String} {values : List SqlValue}
    (h : ∀ v ∈ values, v.Suits (e.columnType column).sqlName) :
    Typed (relatedRows e column values) := by
  unfold relatedRows
  dsimp only
  split
  · exact .append (.sql _) (.sql _)
  · refine .append (.append (.append (.sql _) (.sql _)) (.joinWith fun f hf => ?_)) (.sql _)
    obtain ⟨v, hv, rfl⟩ := List.mem_map.1 hf
    exact typed_boundFor (h v hv)

theorem typed_delete (e : Entity) (id : String) : Typed (delete e id) :=
  .append (.append (.sql _) (typed_text id)) (.sql _)

theorem typed_rowExists (e : Entity) (id : String) : Typed (rowExists e id) :=
  .append (.append (.sql _) (typed_text id)) (.sql _)

end Sql

/-! ### statements -/

/-- the placeholders in the text that is sent, in its order -/
def Sql.Buffer.placeholders (b : Sql.Buffer) : List Nat :=
  (Sql.tokens b.text).filterMap Sql.Token.place?

/-- values have been numbered in the order of the text -/
theorem Statement.placeholders_rendered {q : Statement} (h : q.isRendered = true) :
    q.rendered.placeholders = List.range' 1 q.rendered.params.length := by
  rw [q.rendered_eq]
  exact (Statement.legible h).placeholders

/-- every value suits the cast that stands behind its placeholder; only the look-up of a name binds
its two texts without a cast -/
def Statement.MatchesCasts (q : Statement) : Prop :=
  ∀ k v, q.rendered.params[k]? = some v →
    (∃ type, Sql.castOf (k + 1) (Sql.tokens q.rendered.text) = some type ∧ v.Suits type) ∨
      ∃ e name exceptId, q = .nameTaken e name exceptId

theorem Statement.MatchesCasts.of_typed {q : Statement} (h : q.isRendered = true)
    (ht : q.fragment.Typed) : q.MatchesCasts := by
  intro k v hv
  rw [q.rendered_eq] at hv ⊢
  exact .inl (Sql.castOf_of_typed (Statement.legible h) ht hv)

theorem Statement.MatchesCasts.nameTaken (e : Entity) (name exceptId : String) :
    (Statement.nameTaken e name exceptId).MatchesCasts := fun _ _ _ =>
  .inr ⟨e, name, exceptId, rfl⟩

end EntityAccess
