import Mathlib.Data.List.Infix

/-!
# text patterns

In a pattern of `LIKE` a percent sign stands for any text and an underscore for any character; a
backslash escapes the character after it, whatever that is.  A backslash at the end escapes nothing,
and the text that it is in is no pattern.  Without regard to case, characters are compared by what
they are folded to.

* `scan`, `scan_append` : the items of a pattern, part by part;
* `readPattern` : the pattern that a text is;
* `covers`, `covers_append` : the texts that a pattern covers, part by part;
* `covers_exactly` : a pattern without wildcards covers one text;
* `covers_sample` : every pattern covers its sample, a text without its wildcards;
* `plain_of_sample` : only a text without special characters is its own sample.
-/

namespace EntityAccess.Sql

/-! ### reading patterns -/

/-- one part of a pattern -/
inductive PatternItem where
  | anyText
  | anyChar
  | exactly (c : Char)
deriving DecidableEq

abbrev Pattern := List PatternItem

/-- what a character stands for that is not escaped -/
def PatternItem.ofChar (c : Char) : PatternItem :=
  if c = '%' then .anyText else if c = '_' then .anyChar else .exactly c

/-- a character that stands for something else than itself -/
def isMeta (c : Char) : Bool := c == '%' || c == '_' || c == '\\'

/-- the items of a text, and whether a backslash is left at its end that escapes nothing; `escaped`
if there is one in front of it -/
def scan : (escaped : Bool) → List Char → Pattern × Bool
  | escaped, [] => ([], escaped)
  | true, c :: cs => (.exactly c :: (scan false cs).1, (scan false cs).2)
  | false, c :: cs =>
    if c = '\\' then scan true cs else (.ofChar c :: (scan false cs).1, (scan false cs).2)

theorem scan_escaped (c : Char) (cs : List Char) :
    scan true (c :: cs) = (.exactly c :: (scan false cs).1, (scan false cs).2) := rfl

theorem scan_backslash (cs : List Char) : scan false ('\\' :: cs) = scan true cs := rfl

theorem scan_cons {c : Char} (h : c ≠ '\\') (cs : List Char) :
    scan false (c :: cs) = (.ofChar c :: (scan false cs).1, (scan false cs).2) := if_neg h

/-- a text is scanned part by part -/
theorem scan_append (escaped : Bool) (cs ds : List Char) :
    scan escaped (cs ++ ds) =
      ((scan escaped cs).1 ++ (scan (scan escaped cs).2 ds).1,
        (scan (scan escaped cs).2 ds).2) := by
  induction cs generalizing escaped with
  | nil => cases escaped <;> rfl
  | cons c cs ih =>
    rw [List.cons_append]
    cases escaped with
    | true =>
      rw [scan_escaped, scan_escaped, ih]
      rfl
    | false =>
      by_cases hc : c = '\\'
      · subst hc
        rw [scan_backslash, scan_backslash, ih]
      · rw [scan_cons hc, scan_cons hc, ih]
        rfl

/-- a text without special characters stands for itself -/
theorem scan_of_plain {cs : List Char} (h : cs.any isMeta = false) :
    scan false cs = (cs.map .exactly, false) := by
  induction cs with
  | nil => rfl
  | cons c cs ih =>
    obtain ⟨hc, hcs⟩ : isMeta c = false ∧ cs.any isMeta = false := by simpa using h
    obtain ⟨⟨hpercent, hunder⟩, hback⟩ : (c ≠ '%' ∧ c ≠ '_') ∧ c ≠ '\\' := by
      simpa [isMeta] using hc
    rw [scan_cons hback, ih hcs, PatternItem.ofChar, if_neg hpercent, if_neg hunder]
    rfl

/-- the pattern that a text is, if no backslash is left at its end -/
def readPattern (cs : List Char) : Option Pattern :=
  if (scan false cs).2 then none else some (scan false cs).1

/-! ### the texts of a pattern -/

/-- the pattern covers the whole text, characters being compared after folding -/
def covers (fold : Char → Char) : Pattern → List Char → Bool
  | [], t => t.isEmpty
  | .anyText :: items, t => t.tails.any (covers fold items)
  | .anyChar :: _, [] => false
  | .anyChar :: items, _ :: t => covers fold items t
  | .exactly _ :: _, [] => false
  | .exactly c :: items, d :: t => fold c == fold d && covers fold items t

section

variable (fold : Char → Char)

theorem covers_nil {t : List Char} : covers fold [] t = true ↔ t = [] := List.isEmpty_iff

theorem covers_anyText {items : Pattern} {t : List Char} :
    covers fold (.anyText :: items) t = true ↔ ∃ u v, t = u ++ v ∧ covers fold items v = true := by
  rw [covers, List.any_eq_true]
  constructor
  · rintro ⟨v, hv, hcovers⟩
    obtain ⟨u, rfl⟩ := (List.mem_tails v t).1 hv
    exact ⟨u, v, rfl, hcovers⟩
  · rintro ⟨u, v, rfl, hcovers⟩
    exact ⟨v, (List.mem_tails v _).2 (List.suffix_append u v), hcovers⟩

theorem covers_anyChar {items : Pattern} {t : List Char} :
    covers fold (.anyChar :: items) t = true ↔ ∃ d v, t = d :: v ∧ covers fold items v = true := by
  cases t <;> simp [covers]

theorem covers_exactly_cons {c : Char} {items : Pattern} {t : List Char} :
    covers fold (.exactly c :: items) t = true ↔
      ∃ d v, t = d :: v ∧ fold c = fold d ∧ covers fold items v = true := by
  cases t <;> simp [covers]

/-- the parts of a pattern cover the parts of a text -/
theorem covers_append {items rest : Pattern} {t : List Char} :
    covers fold (items ++ rest) t = true ↔
      ∃ u v, t = u ++ v ∧ covers fold items u = true ∧ covers fold rest v = true := by
  induction items generalizing t with
  | nil =>
    constructor
    · exact fun h => ⟨[], t, rfl, rfl, h⟩
    · rintro ⟨u, v, rfl, hu, hv⟩
      obtain rfl := (covers_nil fold).1 hu
      exact hv
  | cons item items ih =>
    cases item with
    | anyText =>
      rw [List.cons_append, covers_anyText]
      simp only [ih, covers_anyText]
      constructor
      · rintro ⟨w, _, rfl, u, v, rfl, hu, hv⟩
        exact ⟨w ++ u, v, (List.append_assoc w u v).symm, ⟨w, u, rfl, hu⟩, hv⟩
      · rintro ⟨_, v, rfl, ⟨w, u, rfl, hu⟩, hv⟩
        exact ⟨w, u ++ v, List.append_assoc w u v, u, v, rfl, hu, hv⟩
    | anyChar =>
      rw [List.cons_append, covers_anyChar]
      simp only [ih, covers_anyChar]
      constructor
      · rintro ⟨d, _, rfl, u, v, rfl, hu, hv⟩
        exact ⟨d :: u, v, rfl, ⟨d, u, rfl, hu⟩, hv⟩
      · rintro ⟨_, v, rfl, ⟨d, u, rfl, hu⟩, hv⟩
        exact ⟨d, u ++ v, rfl, u, v, rfl, hu, hv⟩
    | exactly c =>
      rw [List.cons_append, covers_exactly_cons]
      simp only [ih, covers_exactly_cons]
      constructor
      · rintro ⟨d, _, rfl, hd, u, v, rfl, hu, hv⟩
        exact ⟨d :: u, v, rfl, ⟨d, u, rfl, hd, hu⟩, hv⟩
      · rintro ⟨_, v, rfl, ⟨d, u, rfl, hd, hu⟩, hv⟩
        exact ⟨d, u ++ v, rfl, hd, u, v, rfl, hu, hv⟩

theorem covers_any {t : List Char} : covers fold [.anyText] t = true :=
  (covers_anyText fold).2 ⟨t, [], (List.append_nil t).symm, rfl⟩

/-- a pattern without wildcards covers one text, up to folding -/
theorem covers_exactly {cs t : List Char} :
    covers fold (cs.map .exactly) t = true ↔ cs.map fold = t.map fold := by
  induction cs generalizing t with
  | nil => simp [covers_nil]
  | cons c cs ih =>
    rw [List.map_cons, covers_exactly_cons, List.map_cons]
    simp only [ih]
    cases t with
    | nil => simp
    | cons d t => simp

/-! ### a sample text -/

/-- a text of a pattern: an `a` for any character, nothing for any text -/
def sample : Pattern → List Char
  | [] => []
  | .anyText :: items => sample items
  | .anyChar :: items => 'a' :: sample items
  | .exactly c :: items => c :: sample items

theorem covers_sample (items : Pattern) : covers fold items (sample items) = true := by
  induction items with
  | nil => rfl
  | cons item items ih =>
    cases item with
    | anyText => exact (covers_anyText fold).2 ⟨[], sample items, rfl, ih⟩
    | anyChar => exact (covers_anyChar fold).2 ⟨'a', sample items, rfl, ih⟩
    | exactly c => exact (covers_exactly_cons fold).2 ⟨c, sample items, rfl, rfl, ih⟩

/-- the sample of a text before a percent sign, which is escaped by a backslash at its end -/
def sampleBefore (scanned : Pattern × Bool) : List Char :=
  sample scanned.1 ++ if scanned.2 then ['%'] else []

theorem length_sampleBefore (escaped : Bool) (cs : List Char) :
    (sampleBefore (scan escaped cs)).length ≤ cs.length + if escaped then 1 else 0 := by
  unfold sampleBefore
  induction cs generalizing escaped with
  | nil => cases escaped <;> simp [scan, sample]
  | cons c cs ih =>
    have hrest := ih false
    cases escaped with
    | true =>
      rw [scan_escaped]
      simp only [sample, List.cons_append, List.length_cons, Bool.false_eq_true, if_false]
        at hrest ⊢
      omega
    | false =>
      by_cases hc : c = '\\'
      · subst hc
        rw [scan_backslash]
        simpa using ih true
      · rw [scan_cons hc, PatternItem.ofChar]
        simp only [Bool.false_eq_true, if_false, List.length_cons] at hrest ⊢
        split
        · simp only [sample]
          omega
        · split
          all_goals
            simp only [sample, List.cons_append, List.length_cons]
            omega

variable {fold} (hcase : ∀ c, isMeta c = true → ∀ d, fold d = fold c → d = c)

include hcase

/-- a backslash and what it escapes are never their own sample -/
theorem sampleBefore_ne_of_escaped (cs : List Char) :
    (sampleBefore (scan true cs)).map fold ≠ ('\\' :: cs).map fold := by
  intro h
  cases cs with
  | nil =>
    have hsame : fold '%' = fold '\\' := (List.cons.inj h).1
    exact absurd (hcase '\\' rfl '%' hsame) (by decide)
  | cons c cs =>
    have hshort := length_sampleBefore false cs
    have hlength := congrArg List.length h
    rw [scan_escaped] at hlength
    simp only [sampleBefore, sample, List.length_map, List.cons_append, List.length_cons,
      Bool.false_eq_true, if_false] at hshort hlength
    omega

/-- a text that is its own sample, up to folding, has no special characters -/
theorem plain_of_sample {cs : List Char}
    (h : (sampleBefore (scan false cs)).map fold = cs.map fold) : cs.any isMeta = false := by
  induction cs with
  | nil => rfl
  | cons c cs ih =>
    by_cases hback : c = '\\'
    · subst hback
      exact absurd h (sampleBefore_ne_of_escaped hcase cs)
    · rw [scan_cons hback, PatternItem.ofChar] at h
      by_cases hpercent : c = '%'
      · -- nothing stands for the percent sign, so the sample is too short
        have hshort := length_sampleBefore false cs
        have hlength := congrArg List.length h
        rw [if_pos hpercent] at hlength
        simp only [sampleBefore, sample, List.length_map, List.length_cons, Bool.false_eq_true,
          if_false] at hshort hlength
        omega
      · rw [if_neg hpercent] at h
        by_cases hunder : c = '_'
        · subst hunder
          have hsame : fold 'a' = fold '_' := (List.cons.inj h).1
          exact absurd (hcase '_' rfl 'a' hsame) (by decide)
        · rw [if_neg hunder] at h
          have hrest : cs.any isMeta = false := ih (List.cons.inj h).2
          simp [isMeta, hpercent, hunder, hback, hrest]

end

end EntityAccess.Sql
