import EntityAccess.Proofs.Sql.Patterns
import EntityAccess.Query.Join

/-!
# operators for parts of a text

Five operators look for their operand at the start of a text, at its end, or anywhere in it, with
regard to case or without.  The operand is a pattern itself: its percent signs, underscores and
backslashes mean there what they mean in every pattern, so it is looked for as it stands exactly if
it has none of these.

* `Place`, `Operator.placed?` : where each operator looks;
* `Predicate.accepts` : the texts of a condition;
* `accepts_placed` : the condition of such an operator;
* `readPattern_wrap`, `covers_around` : an operand in its place;
* `operand_is_pattern` : what is found, and when the operand is looked for as it stands.
-/

namespace EntityAccess

open Sql

/-! ### places -/

/-- where in a text something is -/
inductive Place where
  | start
  | finish
  | anywhere
deriving DecidableEq

namespace Place

/-- `u` is there in `t` -/
def In : Place → List Char → List Char → Prop
  | start, u, t => u <+: t
  | finish, u, t => u <:+ t
  | anywhere, u, t => u <:+: t

instance (place : Place) (u t : List Char) : Decidable (place.In u t) :=
  match place with
  | start => inferInstanceAs (Decidable (u <+: t))
  | finish => inferInstanceAs (Decidable (u <:+ t))
  | anywhere => inferInstanceAs (Decidable (u <:+: t))

variable {place : Place} {u t : List Char}

theorem in_refl (place : Place) (t : List Char) : place.In t t := by
  cases place with
  | start => exact List.prefix_refl t
  | finish => exact List.suffix_refl t
  | anywhere => exact List.infix_refl t

theorem In.isInfix (h : place.In u t) : u <:+: t := by
  cases place with
  | start => exact List.IsPrefix.isInfix h
  | finish => exact List.IsSuffix.isInfix h
  | anywhere => exact h

/-- what is in a folded text is what is in the text, folded -/
theorem in_map_iff {f : Char → Char} {l : List Char} :
    place.In l (t.map f) ↔ ∃ u, place.In u t ∧ l = u.map f := by
  cases place with
  | start => exact List.prefix_map_iff
  | finish => exact List.suffix_map_iff
  | anywhere => exact List.infix_map_iff

/-- the pattern for an operand in this place -/
def wrap : Place → List Char → List Char
  | start, p => p ++ ['%']
  | finish, p => '%' :: p
  | anywhere, p => '%' :: (p ++ ['%'])

/-- the items for those of the operand -/
def around : Place → Pattern → Pattern
  | start, items => items ++ [.anyText]
  | finish, items => .anyText :: items
  | anywhere, items => .anyText :: (items ++ [.anyText])

/-- a pattern in its place covers the texts that have there what the pattern covers -/
theorem covers_around (fold : Char → Char) {items : Pattern} :
    covers fold (place.around items) t = true ↔
      ∃ u, place.In u t ∧ covers fold items u = true := by
  cases place with
  | start =>
    rw [around, covers_append]
    constructor
    · rintro ⟨u, v, rfl, hu, _⟩
      exact ⟨u, List.prefix_append u v, hu⟩
    · rintro ⟨u, ⟨v, rfl⟩, hu⟩
      exact ⟨u, v, rfl, hu, covers_any fold⟩
  | finish =>
    rw [around, covers_anyText]
    constructor
    · rintro ⟨v, u, rfl, hu⟩
      exact ⟨u, List.suffix_append v u, hu⟩
    · rintro ⟨u, ⟨v, rfl⟩, hu⟩
      exact ⟨v, u, rfl, hu⟩
  | anywhere =>
    rw [around, covers_anyText]
    simp only [covers_append]
    constructor
    · rintro ⟨w, _, rfl, u, v, rfl, hu, _⟩
      exact ⟨u, ⟨w, v, List.append_assoc w u v⟩, hu⟩
    · rintro ⟨u, ⟨w, v, rfl⟩, hu⟩
      exact ⟨w, u ++ v, List.append_assoc w u v, u, v, rfl, hu, covers_any fold⟩

end Place

/-! ### operators -/

/-- where an operator looks for its operand, and whether it does so without regard to case -/
def Operator.placed? : Operator → Option (Place × Bool)
  | .startsWith => some (.start, false)
  | .iStartsWith => some (.start, true)
  | .endsWith => some (.finish, false)
  | .iEndsWith => some (.finish, true)
  | .contains => some (.anywhere, true)
  | _ => none

/-- how characters are compared: by what they are folded to, or as they are -/
def comparing (fold : Char → Char) (ignoreCase : Bool) : Char → Char :=
  if ignoreCase then fold else id

/-- a condition on a text, with no answer where the database finds no pattern -/
def Predicate.accepts (fold : Char → Char) : Predicate → String → Option Bool
  | .like _ pattern ignoreCase negated, t =>
    (readPattern pattern.toList).map fun items =>
      covers (comparing fold ignoreCase) items t.toList != negated
  | _, _ => none

/-- a character that is special in patterns has no other case -/
def Uncased (fold : Char → Char) : Prop := ∀ c, isMeta c = true → ∀ d, fold d = fold c → d = c

theorem uncased_comparing {fold : Char → Char} (h : Uncased fold) (ignoreCase : Bool) :
    Uncased (comparing fold ignoreCase) := by
  cases ignoreCase with
  | true => exact h
  | false => exact fun _ _ _ hsame => hsame

/-- in another case there are only letters -/
theorem uncased_toLower : Uncased Char.toLower := by
  intro c hc d h
  have hmeta : c = '%' ∨ c = '_' ∨ c = '\\' := by simpa [isMeta, or_assoc] using hc
  have hsame : d.toLower = c := by
    rcases hmeta with rfl | rfl | rfl <;> exact h
  unfold Char.toLower at hsame
  split at hsame
  · next hupper =>
    have hbounds : 65 ≤ d.val.toNat ∧ d.val.toNat ≤ 90 := hupper
    have hletter : (d.val.toNat + 32) % 4294967296 = c.val.toNat :=
      congrArg (fun e : Char => e.val.toNat) hsame
    rcases hmeta with rfl | rfl | rfl
    · have hcode : ('%'.val).toNat = 37 := rfl
      omega
    · have hcode : ('_'.val).toNat = 95 := rfl
      omega
    · have hcode : ('\\'.val).toNat = 92 := rfl
      omega
  · exact hsame

section

variable {op : Operator} {place : Place} {ignoreCase : Bool}
  (h : op.placed? = some (place, ignoreCase)) (c : ColumnRef) (fold : Char → Char) (p t : String)

include h

theorem accepts_placed :
    (op.build c (.pattern p)).accepts fold t =
      (readPattern (place.wrap p.toList)).map fun items =>
        covers (comparing fold ignoreCase) items t.toList := by
  cases op <;> cases h <;>
    simp [Operator.build, Operand.toPattern, Predicate.accepts, Place.wrap]

theorem accepts_eq_true_iff :
    (op.build c (.pattern p)).accepts fold t = some true ↔
      ∃ items, readPattern (place.wrap p.toList) = some items ∧
        covers (comparing fold ignoreCase) items t.toList = true := by
  rw [accepts_placed h, Option.map_eq_some_iff]

end

/-! ### operands in their places -/

variable {place : Place} {p : List Char}

/-- a percent sign behind a text stands for any text, unless the text escapes it -/
theorem scan_percent (p : List Char) :
    scan false (p ++ ['%']) =
      ((scan false p).1 ++ [if (scan false p).2 then .exactly '%' else .anyText], false) := by
  rw [scan_append]
  cases (scan false p).2 with
  | true => rfl
  | false => rfl

theorem readPattern_wrap {items : Pattern} (h : readPattern p = some items) (place : Place) :
    readPattern (place.wrap p) = some (place.around items) := by
  obtain ⟨hpaired, rfl⟩ : ¬ (scan false p).2 = true ∧ (scan false p).1 = items := by
    unfold readPattern at h
    split at h
    · cases h
    · next hpaired => exact ⟨hpaired, Option.some.inj h⟩
  have hpercent := scan_percent p
  rw [if_neg hpaired] at hpercent
  unfold readPattern
  cases place with
  | start => simp [Place.wrap, Place.around, hpercent]
  | finish => simp [Place.wrap, Place.around, scan, PatternItem.ofChar, hpaired]
  | anywhere => simp [Place.wrap, Place.around, scan, PatternItem.ofChar, hpercent]

/-- at the end of a pattern, an operand has to be a pattern by itself -/
theorem isSome_readPattern_wrap :
    (readPattern (place.wrap p)).isSome = true ↔
      (place = .finish → (readPattern p).isSome = true) := by
  cases place with
  | start => simp [readPattern, Place.wrap, scan_percent]
  | finish => simp [readPattern, Place.wrap, scan]
  | anywhere => simp [readPattern, Place.wrap, scan, scan_percent]

/-- an operand in its place finds its own sample -/
theorem covers_sampleBefore (fold : Char → Char) {items : Pattern}
    (h : readPattern (place.wrap p) = some items) :
    covers fold items (sampleBefore (scan false p)) = true := by
  cases hread : readPattern p with
  | some read =>
    have hpaired : (scan false p) = (read, false) := by
      unfold readPattern at hread
      split at hread
      · cases hread
      · next hpaired => exact Prod.ext (Option.some.inj hread) (by simpa using hpaired)
    obtain rfl := Option.some.inj ((readPattern_wrap hread place).symm.trans h)
    rw [hpaired, sampleBefore, if_neg Bool.false_ne_true, List.append_nil]
    exact (Place.covers_around fold).2 ⟨_, place.in_refl _, covers_sample fold read⟩
  | none =>
    have hunpaired : (scan false p).2 = true := by simpa [readPattern] using hread
    have hpercent := scan_percent p
    rw [if_pos hunpaired] at hpercent
    have hescaped : covers fold ((scan false p).1 ++ [.exactly '%'])
        (sampleBefore (scan false p)) = true := by
      rw [sampleBefore, if_pos hunpaired]
      exact (covers_append fold).2
        ⟨_, _, rfl, covers_sample fold _, covers_sample fold [.exactly '%']⟩
    cases place with
    | start =>
      obtain rfl : (scan false p).1 ++ [.exactly '%'] = items := by
        simpa [readPattern, Place.wrap, hpercent] using h
      exact hescaped
    | finish => simp [readPattern, Place.wrap, scan, hunpaired] at h
    | anywhere =>
      obtain rfl : .anyText :: ((scan false p).1 ++ [.exactly '%']) = items := by
        simpa [readPattern, Place.wrap, scan, hpercent, PatternItem.ofChar] using h
      exact (covers_anyText fold).2 ⟨[], _, rfl, hescaped⟩

/-- an operand without special characters is looked for as it stands -/
theorem covers_around_plain (fold : Char → Char) {t : List Char} :
    covers fold (place.around (p.map .exactly)) t = true ↔ place.In (p.map fold) (t.map fold) := by
  rw [Place.covers_around, Place.in_map_iff]
  simp only [covers_exactly]

/-- the operand of an operator for a part of a text is a pattern, and the operator finds it in all
texts that have in that place what the pattern covers.  An unpaired backslash at the end of the
operand leaves no pattern to the two operators for the end of a text, and a pattern to the others.
The operand is looked for as it stands if it has no special character, and, as long as these have
only one case, in no other case -/
theorem operand_is_pattern {op : Operator} {place : Place} {ignoreCase : Bool}
    (h : op.placed? = some (place, ignoreCase)) (c : ColumnRef) (fold : Char → Char) (p : String) :
    (∀ t, ((op.build c (.pattern p)).accepts fold t).isSome = true ↔
      (place = .finish → (readPattern p.toList).isSome = true)) ∧
    (∀ items, readPattern p.toList = some items → ∀ t,
      (op.build c (.pattern p)).accepts fold t = some true ↔
        ∃ u, place.In u t.toList ∧ covers (comparing fold ignoreCase) items u = true) ∧
    (p.toList.any isMeta = false → ∀ t,
      (op.build c (.pattern p)).accepts fold t =
        some (decide (place.In (p.toList.map (comparing fold ignoreCase))
          (t.toList.map (comparing fold ignoreCase))))) ∧
    (Uncased fold → (∀ t, (op.build c (.pattern p)).accepts fold t = some true ↔
        place.In (p.toList.map (comparing fold ignoreCase))
          (t.toList.map (comparing fold ignoreCase))) →
      p.toList.any isMeta = false) := by
  refine ⟨fun t => ?_, fun items hitems t => ?_, fun hplain t => ?_, fun hcase hliteral => ?_⟩
  · rw [accepts_placed h, Option.isSome_map, isSome_readPattern_wrap]
  · rw [accepts_placed h, readPattern_wrap hitems, Option.map_some, Option.some.injEq,
      Place.covers_around]
  · have hitems : readPattern p.toList = some (p.toList.map .exactly) := by
      simp [readPattern, scan_of_plain hplain]
    rw [accepts_placed h, readPattern_wrap hitems, Option.map_some, Option.some.injEq,
      Bool.eq_iff_iff, covers_around_plain, decide_eq_true_iff]
  · -- the operand is in itself, so there is a pattern, and that covers the sample
    obtain ⟨items, hitems, _⟩ := (accepts_eq_true_iff h c fold p p).1
      ((hliteral p).2 (place.in_refl _))
    have hsample := covers_sampleBefore (comparing fold ignoreCase) hitems
    generalize hw : sampleBefore (scan false p.toList) = w at hsample
    have hfound := (hliteral (String.ofList w)).1 ((accepts_eq_true_iff h c fold p _).2
      ⟨items, hitems, by rwa [String.toList_ofList]⟩)
    rw [String.toList_ofList] at hfound
    -- which is no longer than the operand, so it is the operand
    have hshort := length_sampleBefore false p.toList
    have hinfix := hfound.isInfix
    have hsame := hinfix.eq_of_length_le (by
      rw [List.length_map, List.length_map, ← hw]
      simpa using hshort)
    refine plain_of_sample (uncased_comparing hcase ignoreCase) ?_
    rw [hw, hsame]

/-- a title is looked for by a date as it stands, by three characters of which the middle one is
any, and by a percent sign, though not as it stands -/
theorem titles_found :
    (∀ t : String, (Operator.startsWith.build ⟨rootAlias, "title", .text⟩
        (.pattern "2024-05")).accepts Char.toLower t =
      some (decide ("2024-05".toList <+: t.toList))) ∧
    (∀ t : String, (Operator.contains.build ⟨rootAlias, "title", .text⟩
        (.pattern "a_c")).accepts Char.toLower t = some true ↔
      ∃ u, u <:+: t.toList ∧
        covers Char.toLower [.exactly 'a', .anyChar, .exactly 'c'] u = true) ∧
    ¬ ∀ t : String, (Operator.iEndsWith.build ⟨rootAlias, "title", .text⟩
        (.pattern "100%")).accepts Char.toLower t = some true ↔
      "100%".toList.map Char.toLower <:+ t.toList.map Char.toLower := by
  have hstart : Operator.startsWith.placed? = some (.start, false) := rfl
  have hwithin : Operator.contains.placed? = some (.anywhere, true) := rfl
  have hfinish : Operator.iEndsWith.placed? = some (.finish, true) := rfl
  obtain ⟨_, _, hplain, _⟩ := operand_is_pattern hstart ⟨rootAlias, "title", .text⟩ Char.toLower
    "2024-05"
  obtain ⟨_, hfound, _⟩ := operand_is_pattern hwithin ⟨rootAlias, "title", .text⟩ Char.toLower
    "a_c"
  obtain ⟨_, _, _, hliteral⟩ := operand_is_pattern hfinish ⟨rootAlias, "title", .text⟩ Char.toLower
    "100%"
  refine ⟨fun t => ?_, hfound _ (by decide), fun hends => ?_⟩
  · have hdate := hplain (by decide +kernel) t
    rw [show comparing Char.toLower false = id from rfl, List.map_id, List.map_id] at hdate
    exact hdate
  · exact absurd (hliteral uncased_toLower hends) (by decide +kernel)

/-- a text that the operand only covers is found, and a backslash is no pattern for an end -/
theorem operand_not_literal :
    (Operator.startsWith.build ⟨rootAlias, "title", .text⟩ (.pattern "100%")).accepts Char.toLower
        "1000" = some true ∧
      ¬ "100%".toList <+: "1000".toList ∧
      (Operator.endsWith.build ⟨rootAlias, "title", .text⟩ (.pattern "\\")).accepts Char.toLower
        "\\" = none :=
  ⟨by rfl, by decide, by rfl⟩

end EntityAccess
