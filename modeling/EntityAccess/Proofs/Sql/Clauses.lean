import EntityAccess.Proofs.Sql.Renderings
import Mathlib.Data.List.TakeWhile

/-!
# counting and paging the same rows

The tables and conditions of a statement stand between the last word `FROM` of its text and the
word that opens its grouping, its order or its window.  Read so, with the values in the place of
their placeholders, they are the same of a count and of a page, although the placeholders are
numbered differently.

* `Sql.words` : a text cut at blanks;
* `Sql.sourceClauses` : the tables and conditions of a statement;
* `sourceClauses_of_filled` : where they stand in a text that is put together;
* `count_reads_like_select` : a plan's count and its rows, in any order and window.
-/

namespace EntityAccess.Sql

open Fragment

/-! ### words -/

/-- the tokens between blanks; blanks of quoted names are none -/
def words (ts : List Token) : List (List Token) := ts.splitOnP (Token.is ' ')

/-- tokens that are just these characters, outside of quotes -/
def spells : List Char → List Token → Bool
  | [], [] => true
  | c :: cs, t :: ts => t.is c && spells cs ts
  | _, _ => false

/-- the word before the tables -/
def opens (word : List Token) : Bool := spells "FROM".toList word

/-- the words after the conditions -/
def closingWords : List String := ["GROUP", "ORDER", "LIMIT", "OFFSET"]

def closes (word : List Token) : Bool := closingWords.any fun w => spells w.toList word

/-- what stands after the last element with a property -/
def afterLast {α : Type} (p : α → Bool) : List α → Option (List α)
  | [] => none
  | a :: as => (afterLast p as).or (if p a then some as else none)

/-- the words of the tables and conditions of a statement, with its values in them -/
def sourceClauses (f : Fragment) : Option (List (List Token)) :=
  (afterLast opens (words f.filled)).map (List.takeWhile fun w => !closes w)

/-! ### words of clean tokens -/

theorem words_append_blank (ts us : List Token) :
    words (ts ++ .char ' ' :: us) = words ts ++ words us :=
  List.splitOnP_append_cons ts us rfl

/-- a word stands as it is among the tokens -/
theorem infix_of_mem_words {ts w : List Token} (h : w ∈ words ts) : w <:+: ts := by
  -- the first word even begins the tokens, so that one more token can be put before it
  have hall : ∃ first rest, words ts = first :: rest ∧ first <+: ts ∧ ∀ w ∈ rest, w <:+: ts := by
    clear h
    unfold words
    induction ts with
    | nil => exact ⟨[], [], rfl, List.prefix_rfl, by simp⟩
    | cons t ts ih =>
      obtain ⟨first, rest, hwords, hfirst, hrest⟩ := ih
      have hlater : ∀ w ∈ rest, w <:+: t :: ts := fun w hw =>
        (hrest w hw).trans (List.suffix_cons t ts).isInfix
      rw [List.splitOnP_cons_eq_if_modifyHead, hwords]
      split
      · exact ⟨[], first :: rest, rfl, List.nil_prefix,
          List.forall_mem_cons.2 ⟨hfirst.isInfix.trans (List.suffix_cons t ts).isInfix, hlater⟩⟩
      · exact ⟨t :: first, rest, rfl, List.cons_prefix_cons.2 ⟨rfl, hfirst⟩, hlater⟩
  obtain ⟨first, rest, hwords, hfirst, hrest⟩ := hall
  rw [hwords] at h
  rcases List.mem_cons.1 h with rfl | h
  · exact hfirst.isInfix
  · exact hrest w h

theorem words_of_no_blank {ts : List Token} (h : ∀ t ∈ ts, t.is ' ' = false) : words ts = [ts] :=
  List.splitOnP_eq_singleton h

theorem spells_self (cs : List Char) : spells cs (cs.map .char) = true := by
  induction cs with
  | nil => rfl
  | cons c cs ih => simp [spells, Token.is, ih]

/-- a word that is spelled by clean tokens has none of their pairs of letters -/
theorem isChain_of_spells {marks : List (Char × Char)} {cs : List Char} {ts : List Token}
    (hclean : ts.IsChain (Apart marks)) (h : spells cs ts = true) :
    cs.IsChain fun a b => (a, b) ∉ marks := by
  induction cs generalizing ts with
  | nil => exact .nil
  | cons a cs ih =>
    cases cs with
    | nil => exact .singleton a
    | cons b cs =>
      cases ts with
      | nil => cases h
      | cons s ts =>
        obtain ⟨hs, h⟩ := Bool.and_eq_true_iff.1 h
        cases ts with
        | nil => cases h
        | cons t ts =>
          obtain ⟨hpair, hclean⟩ := List.isChain_cons_cons.1 hclean
          have ht : t.is b = true := (Bool.and_eq_true_iff.1 h).1
          exact List.isChain_cons_cons.2 ⟨fun hmem => hpair (a, b) hmem ⟨hs, ht⟩, ih hclean h⟩

theorem not_spells {marks : List (Char × Char)} {ts w : List Token}
    (hclean : ts.IsChain (Apart marks)) (hw : w ∈ words ts) {cs : List Char}
    (hcs : ¬ cs.IsChain fun a b => (a, b) ∉ marks) : spells cs w = false := by
  have hword : w.IsChain (Apart marks) := hclean.infix (infix_of_mem_words hw)
  exact Bool.eq_false_iff.2 fun h => hcs (isChain_of_spells hword h)

/-! ### where the clauses stand -/

theorem afterLast_append {α : Type} {p : α → Bool} {a : α} {as : List α} (ha : p a = true)
    (has : ∀ b ∈ as, p b = false) (before : List α) :
    afterLast p (before ++ a :: as) = some as := by
  have hnone : afterLast p as = none := by
    clear ha
    induction as with
    | nil => rfl
    | cons b as ih =>
      obtain ⟨hb, has⟩ := List.forall_mem_cons.1 has
      simp [afterLast, ih has, hb]
  induction before with
  | nil => simp [afterLast, hnone, ha]
  | cons b before ih => simp [afterLast, ih]

/-- nothing, or what begins with one of the words after the conditions -/
inductive Closing : List Token → Prop where
  | nil : Closing []
  | word {w : String} (hw : w ∈ closingWords) (rest : List Token) :
      Closing (.char ' ' :: (w.toList.map .char ++ .char ' ' :: rest))

theorem Closing.append {ts us : List Token} (ht : Closing ts) (hu : Closing us) :
    Closing (ts ++ us) := by
  cases ht with
  | nil => exact hu
  | word hw rest =>
    rw [List.cons_append, List.append_assoc, List.cons_append]
    exact .word hw (rest ++ us)

/-- the words before the closing one -/
theorem takeWhile_words {clauses tail : List Token} (hclauses : Clean clauseMarks clauses)
    (htail : Closing tail) :
    (words (clauses ++ tail)).takeWhile (fun w => !closes w) = words clauses := by
  have hopen : ∀ w ∈ words clauses, (!closes w) = true := by
    intro w hw
    have hnone : ∀ word ∈ closingWords, spells word.toList w = false := fun word hword =>
      not_spells hclauses.chain hw (by
        revert word
        decide)
    simpa [closes] using hnone
  cases htail with
  | nil =>
    rw [List.append_nil]
    exact List.takeWhile_eq_self_iff.2 hopen
  | @word w hw rest =>
    have hblank : ∀ t ∈ w.toList.map Token.char, t.is ' ' = false := by
      revert w
      decide
    have hclosing : (!closes (w.toList.map Token.char)) = false := by
      have hself : closes (w.toList.map Token.char) = true :=
        List.any_eq_true.2 ⟨w, hw, spells_self _⟩
      rw [hself]
      rfl
    rw [words_append_blank, words_append_blank, words_of_no_blank hblank,
      List.takeWhile_append_of_pos hopen, List.singleton_append,
      List.takeWhile_cons_of_neg (by rw [hclosing]; exact Bool.false_ne_true), List.append_nil]

/-- the clauses of a text that is put together from a head, the tables and conditions, and a tail -/
theorem sourceClauses_of_filled {f : Fragment} {head clauses tail : List Token}
    (hf : f.filled = head ++ (tokens " FROM " ++ (clauses ++ tail)))
    (hclauses : Clean clauseMarks clauses) (htail : Clean openingMarks tail)
    (hclosing : Closing tail) : sourceClauses f = some (words clauses) := by
  have hfrom : tokens " FROM " = .char ' ' :: ("FROM".toList.map .char ++ [.char ' ']) := rfl
  have hwords : words f.filled =
      words head ++ "FROM".toList.map .char :: words (clauses ++ tail) := by
    rw [hf, hfrom, List.cons_append, List.append_assoc, List.singleton_append, words_append_blank,
      words_append_blank]
    rfl
  have hrest : Clean openingMarks (clauses ++ tail) := (hclauses.mono (by decide)).append htail
  have hlast : afterLast opens (words f.filled) = some (words (clauses ++ tail)) := by
    rw [hwords]
    exact afterLast_append (spells_self _)
      (fun w hw => not_spells hrest.chain hw (by decide)) (words head)
  unfold sourceClauses
  rw [hlast, Option.map_some, takeWhile_words hclauses hclosing]

/-! ### reads of a plan -/

variable (schema : Schema) (plan : SelectPlan)

/-- the tables and conditions of a plan -/
def source : Fragment := sql [fromClause schema plan] ++ whereClause plan.predicates

theorem spelled_sql {parts : List String} (h : ∀ s ∈ parts, Tidy [] s) :
    spelled (sql parts) = parts.flatMap tokens := by
  have hparts : spelled (sql parts) = tokens (Text.concat parts) ++ [] := rfl
  rw [hparts, List.append_nil, Tidy.tokens_concat h]

theorem legible_source : Legible clauseMarks (source schema plan) :=
  .append (.sql (by simpa using tidy_fromClause schema plan)) (legible_whereClause plan.predicates)

/-- the tables behind a head that ends in `FROM` -/
theorem spelled_from {head : List String} (h : ∀ s ∈ head, Tidy [] s) (ps : Fragment) :
    spelled (sql (head ++ [" FROM ", fromClause schema plan]) ++ ps) =
      head.flatMap tokens ++
        (tokens " FROM " ++ (spelled (sql [fromClause schema plan]) ++ spelled ps)) := by
  have htable : Tidy [] (fromClause schema plan) := (tidy_fromClause schema plan).unmarked
  have hall : ∀ s ∈ head ++ [" FROM ", fromClause schema plan], Tidy [] s := by
    refine List.forall_mem_append.2 ⟨h, ?_⟩
    simpa using ⟨by decide, htable⟩
  rw [spelled_append, spelled_sql hall, spelled_sql (by simpa using htable)]
  simp

theorem closing_orderClause (terms : List Fragment) : Closing (spelled (orderClause terms)) := by
  unfold orderClause
  split
  · exact .nil
  · rw [spelled_append]
    exact .word (w := "ORDER") (by decide) _

theorem closing_windowClause : Closing (spelled (windowClause plan)) := by
  have hpart : ∀ word ∈ ["LIMIT", "OFFSET"], ∀ n, Closing (tokens (windowPart word n)) := by
    intro word hword n
    cases n with
    | none => exact .nil
    | some n =>
      have hnumber : Tidy [] (toString n) := .number (by simp) n
      have htidy : Tidy [] word ∧ tokens word = word.toList.map .char ∧ word ∈ closingWords := by
        simp only [List.mem_cons, List.not_mem_nil, or_false] at hword
        rcases hword with rfl | rfl <;> exact ⟨by decide, rfl, by decide⟩
      have hspelled : tokens (windowPart word (some n)) =
          .char ' ' :: (word.toList.map .char ++ .char ' ' :: tokens (toString n)) := by
        have hparts : ∀ s ∈ [" ", word, " ", toString n], Tidy [] s := by
          simpa +decide [htidy.1] using hnumber
        rw [windowPart, Tidy.tokens_concat hparts, ← htidy.2.1]
        simp
        rfl
      rw [hspelled]
      exact .word htidy.2.2 _
  unfold windowClause
  have hlimit : Tidy openingMarks (windowPart "LIMIT" plan.limit) := tidy_windowPart (by decide) _
  have hoffset : Tidy openingMarks (windowPart "OFFSET" plan.offset) :=
    tidy_windowPart (by decide) _
  rw [spelled_sql (by simpa using ⟨hlimit.unmarked, hoffset.unmarked⟩)]
  simpa using (hpart "LIMIT" (by simp) plan.limit).append (hpart "OFFSET" (by simp) plan.offset)

/-- the clauses of one row per joined row -/
theorem sourceClauses_flatSelect :
    sourceClauses (flatSelect schema plan) = some (words (source schema plan).filled) := by
  have hhead : ∀ s ∈ ["SELECT ", rootColumns plan.entity], Tidy [] s := by
    simpa +decide using (tidy_rootColumns plan.entity).unmarked
  have hfilled : (flatSelect schema plan).filled =
      ["SELECT ", rootColumns plan.entity].flatMap tokens ++ (tokens " FROM " ++
        (spelled (source schema plan) ++
          spelled (orderClause (plan.order.map orderTerm) ++ windowClause plan))) := by
    rw [(legible_flatSelect schema plan).filled, source, spelled_append, List.append_assoc,
      ← spelled_append, ← spelled_from schema plan hhead]
    simp [flatSelect]
  rw [(legible_source schema plan).filled]
  refine sourceClauses_of_filled hfilled (legible_source schema plan).clean
    ((legible_order plan).append (legible_windowClause plan)).clean ?_
  rw [spelled_append]
  exact (closing_orderClause _).append (closing_windowClause plan)

/-- the clauses of a window over groups, which stand inside -/
theorem sourceClauses_groupedSelect :
    sourceClauses (groupedSelect schema plan) = some (words (source schema plan).filled) := by
  let before : Fragment := sql ["SELECT ", rootColumns plan.entity, " FROM ", tableOf plan.entity,
    " AS ", quoted rootAlias, " INNER JOIN ("] ++ sql ["SELECT "] ++ pageKeys plan
  let after : Fragment := pageTail plan ++
    sql [") AS \"page\" ON \"page\".\"page_id\" = ", rootKey] ++ groupOrder plan
  have hlegible : Legible openingMarks after :=
    ((legible_pageTail plan).append (.sql (by decide))).append (legible_groupOrder plan)
  have hsplit : groupedSelect schema plan =
      before ++ (sql ([] ++ [" FROM ", fromClause schema plan]) ++
        (whereClause plan.predicates ++ after)) := by
    simp [groupedSelect, pageSelect_eq, before, after, groupOrder]
  have hfilled : (groupedSelect schema plan).filled =
      spelled before ++ (tokens " FROM " ++ (spelled (source schema plan) ++ spelled after)) := by
    rw [(legible_groupedSelect schema plan).filled, hsplit, spelled_append,
      spelled_from schema plan (by simp), source, spelled_append, spelled_append]
    simp [spelled_append]
  have hclosing : Closing (spelled after) := by
    have hgroup : ∀ s ∈ [" GROUP BY ",
        Text.joinWith ", " (rootKey :: plan.order.filterMap groupColumn?)], Tidy [] s := by
      simpa +decide using (tidy_groupColumns plan).unmarked
    simp only [after, pageTail, List.append_assoc]
    rw [spelled_append, spelled_sql hgroup]
    exact .word (w := "GROUP") (by decide) _
  rw [(legible_source schema plan).filled]
  exact sourceClauses_of_filled hfilled (legible_source schema plan).clean hlegible.clean hclosing

theorem sourceClauses_select :
    sourceClauses (select schema plan) = some (words (source schema plan).filled) := by
  unfold select
  split
  · exact sourceClauses_groupedSelect schema plan
  · exact sourceClauses_flatSelect schema plan

theorem sourceClauses_count :
    sourceClauses (count schema plan) = some (words (source schema plan).filled) := by
  have hhead : ∀ s ∈ ["SELECT COUNT(DISTINCT ", rootKey, ") AS \"count\""], Tidy [] s := by decide
  have hfilled : (count schema plan).filled =
      ["SELECT COUNT(DISTINCT ", rootKey, ") AS \"count\""].flatMap tokens ++ (tokens " FROM " ++
        (spelled (source schema plan) ++ [])) := by
    have hcount : count schema plan = sql (["SELECT COUNT(DISTINCT ", rootKey, ") AS \"count\""] ++
        [" FROM ", fromClause schema plan]) ++ whereClause plan.predicates := by
      have hsplit : ∀ s, ") AS \"count\" FROM " ++ s = ") AS \"count\"" ++ (" FROM " ++ s) := by
        intro s
        rw [← String.append_assoc]
        rfl
      simp only [count, sql, List.cons_append, List.nil_append, Text.concat_cons, hsplit]
    rw [(legible_count schema plan).filled, hcount, spelled_from schema plan hhead, source,
      spelled_append, List.append_nil]
  rw [(legible_source schema plan).filled]
  exact sourceClauses_of_filled hfilled (legible_source schema plan).clean .nil .nil

/-- a count asks for the tables and conditions of its plan, and so does every page of that plan,
with whatever order and window -/
theorem count_reads_like_select :
    ∃ clauses, sourceClauses (count schema plan) = some clauses ∧
      clauses = words (source schema plan).filled ∧
      ∀ (order : List OrderTerm) (limit offset : Option Nat),
        count schema { plan with order := order, limit := limit, offset := offset } =
            count schema plan ∧
          sourceClauses (select schema
            { plan with order := order, limit := limit, offset := offset }) = some clauses :=
  ⟨_, sourceClauses_count schema plan, rfl, fun _ _ _ => ⟨rfl, sourceClauses_select schema _⟩⟩

end EntityAccess.Sql
