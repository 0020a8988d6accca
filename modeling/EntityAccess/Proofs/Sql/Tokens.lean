import EntityAccess.Sql.Fragment
import Mathlib.Data.List.Chain

/-!
# reading the text of a statement

A statement is read a character at a time: quoted names, placeholders, and the characters between
them.  A placeholder is a `$` and the digits after it, outside of quotes.  What is made of pieces
that end outside of quotes, and have no `$` of their own, is read piece by piece.

* `Sql.tokens` : what a text is read as;
* `Fragment.placeholders`, `Fragment.filled` : the placeholders of a statement in the order of its
  text, and its text with each of them replaced by the value that is bound to it;
* `Sql.Tidy` : texts without placeholders, which do not run into what follows;
* `Fragment.Legible` : fragments of such texts and of values;
* `Legible.placeholders`, `Legible.filled` : what legible statements are read as.
-/

namespace EntityAccess.Sql

/-! ### tokens -/

inductive Token where
  /-- a character outside of quotes -/
  | char (c : Char)
  /-- a character of a quoted name, or one of its quotes -/
  | quoted (c : Char)
  | place (n : Nat)
  /-- a value in the place of its placeholder -/
  | value (v : SqlValue)

namespace Token

/-- a character, in a quoted name or outside -/
def isText : Token → Bool
  | .char _ => true
  | .quoted _ => true
  | _ => false

/-- that character, outside of quotes -/
def is (c : Char) : Token → Bool
  | .char d => d = c
  | _ => false

def place? : Token → Option Nat
  | .place n => some n
  | _ => none

/-- the value of a placeholder in its place; placeholders are counted from one -/
def fill (params : List SqlValue) : Token → Token
  | .place (k + 1) => ((params[k]?).map .value).getD (.place (k + 1))
  | t => t

theorem place?_of_isText {t : Token} (h : t.isText = true) : t.place? = none := by
  cases t with
  | place n => cases h
  | _ => rfl

theorem fill_of_isText {t : Token} (h : t.isText = true) (params : List SqlValue) :
    t.fill params = t := by
  cases t with
  | place n => cases h
  | _ => rfl

end Token

/-! ### the reader -/

/-- where a reader is: outside of quotes, inside, or at the digits of a placeholder -/
inductive Mode where
  | plain
  | inside
  | number (n : Nat)
deriving DecidableEq

namespace Mode

/-- a character outside of quotes that belongs to no placeholder before it -/
def start (c : Char) : List Token × Mode :=
  if c = '"' then ([.quoted c], .inside)
  else if c = '$' then ([], .number 0)
  else ([.char c], .plain)

def step : Mode → Char → List Token × Mode
  | .plain, c => start c
  | .inside, c => ([.quoted c], if c = '"' then .plain else .inside)
  | .number n, c =>
    if c.isDigit then ([], .number (10 * n + (c.toNat - '0'.toNat)))
    else (.place n :: (start c).1, (start c).2)

/-- what is still to be read at the end of the text -/
def rest : Mode → List Token
  | .number n => [.place n]
  | _ => []

end Mode

/-- the tokens of a text, and where the reader is after it -/
def read : Mode → List Char → List Token × Mode
  | m, [] => ([], m)
  | m, c :: cs => ((m.step c).1 ++ (read (m.step c).2 cs).1, (read (m.step c).2 cs).2)

/-- what a text is read as -/
def tokens (text : String) : List Token :=
  (read .plain text.toList).1 ++ (read .plain text.toList).2.rest

theorem read_append (m : Mode) (cs ds : List Char) :
    read m (cs ++ ds) =
      ((read m cs).1 ++ (read (read m cs).2 ds).1, (read (read m cs).2 ds).2) := by
  induction cs generalizing m with
  | nil => rfl
  | cons c cs ih =>
    rw [List.cons_append]
    simp only [read, ih, List.append_assoc]

/-- digits belong to the placeholder before them -/
theorem read_digits {ds : List Char} (h : ∀ d ∈ ds, d.isDigit = true) (n : Nat) :
    read (.number n) ds = ([], .number (Nat.ofDigitChars 10 ds n)) := by
  induction ds generalizing n with
  | nil => rfl
  | cons d ds ih =>
    obtain ⟨hd, hds⟩ := List.forall_mem_cons.1 h
    have hstep : (Mode.number n).step d = ([], .number (10 * n + (d.toNat - '0'.toNat))) := by
      simp only [Mode.step, hd, if_true]
    simp only [read, hstep, ih hds, List.nil_append]
    rfl

/-- what does not go on with a number -/
def EndsNumber (cs : List Char) : Prop := ∃ c rest, cs = c :: rest ∧ c.isDigit = false

/-- a placeholder in front of what does not go on with its number -/
theorem read_placeholder (n : Nat) {cs : List Char} (h : EndsNumber cs) :
    read .plain ((Text.concat ["$", toString n]).toList ++ cs) =
      (.place n :: (read .plain cs).1, (read .plain cs).2) := by
  obtain ⟨c, rest, rfl, hc⟩ := h
  have hdigits : ∀ d ∈ Nat.toDigits 10 n, d.isDigit = true := fun d hd =>
    Nat.isDigit_of_mem_toDigits (by decide) (by decide) hd
  have hnumber : read .plain (Text.concat ["$", toString n]).toList = ([], .number n) := by
    have hlist : (Text.concat ["$", toString n]).toList = '$' :: Nat.toDigits 10 n := by
      simp
    have hfirst : read .plain ('$' :: Nat.toDigits 10 n) =
        read (.number 0) (Nat.toDigits 10 n) := rfl
    rw [hlist, hfirst, read_digits hdigits, Nat.ofDigitChars_toDigits (by decide) (by decide)]
  have hstep : (Mode.number n).step c = (.place n :: (Mode.start c).1, (Mode.start c).2) := by
    simp only [Mode.step, hc, Bool.false_eq_true, if_false]
  rw [read_append, hnumber]
  simp only [read, hstep, List.nil_append, List.cons_append]
  rfl

/-! ### texts that are read on their own -/

/-- two tokens that are none of the given pairs of letters -/
def Apart (marks : List (Char × Char)) (s t : Token) : Prop :=
  ∀ p ∈ marks, ¬ (s.is p.1 = true ∧ t.is p.2 = true)

instance (marks : List (Char × Char)) (s t : Token) : Decidable (Apart marks s t) :=
  inferInstanceAs (Decidable (∀ p ∈ marks, ¬ (s.is p.1 = true ∧ t.is p.2 = true)))

/-- none of the given pairs of letters is next to each other, whatever follows -/
structure Clean (marks : List (Char × Char)) (ts : List Token) : Prop where
  chain : ts.IsChain (Apart marks)
  last : ∀ t ∈ ts.getLast?, ∀ p ∈ marks, t.is p.1 = false

/-- a text that is read from outside of quotes to outside of quotes, without placeholders, and that
has none of the given pairs of letters -/
structure Tidy (marks : List (Char × Char)) (s : String) : Prop where
  closed : (read .plain s.toList).2 = .plain
  text : ∀ t ∈ tokens s, t.isText = true
  clean : Clean marks (tokens s)

variable {marks : List (Char × Char)}

namespace Clean

theorem nil : Clean marks [] := ⟨.nil, by simp⟩

theorem append {ts us : List Token} (ht : Clean marks ts) (hu : Clean marks us) :
    Clean marks (ts ++ us) where
  chain := List.isChain_append.2 ⟨ht.chain, hu.chain, fun s hs _ _ p hp h => by
    rw [ht.last s hs p hp] at h
    exact Bool.false_ne_true h.1⟩
  last t h := by
    rw [List.getLast?_append, Option.mem_def, Option.or_eq_some_iff] at h
    rcases h with h | ⟨_, h⟩
    · exact hu.last t h
    · exact ht.last t h

/-- tokens that are no letters of a pair -/
theorem of_forall {ts : List Token} (h : ∀ t ∈ ts, ∀ p ∈ marks, t.is p.1 = false) :
    Clean marks ts where
  chain := by
    induction ts with
    | nil => exact .nil
    | cons t ts ih =>
      obtain ⟨ht, hts⟩ := List.forall_mem_cons.1 h
      refine List.isChain_cons.2 ⟨fun u _ p hp hpair => ?_, ih hts⟩
      rw [ht p hp] at hpair
      exact Bool.false_ne_true hpair.1
  last t ht := h t (List.mem_of_mem_getLast? ht)

theorem value (v : SqlValue) : Clean marks [.value v] :=
  of_forall fun t ht p _ => by
    obtain rfl := List.mem_singleton.1 ht
    rfl

theorem mono {ts : List Token} {marks' : List (Char × Char)} (h : Clean marks ts)
    (hsub : ∀ p ∈ marks', p ∈ marks) : Clean marks' ts where
  chain := h.chain.imp fun _ _ hst p hp => hst p (hsub p hp)
  last t ht p hp := h.last t ht p (hsub p hp)

end Clean

instance (ts : List Token) : Decidable (Clean marks ts) :=
  decidable_of_iff (ts.IsChain (Apart marks) ∧ ∀ t ∈ ts.getLast?, ∀ p ∈ marks, t.is p.1 = false)
    ⟨fun h => ⟨h.1, h.2⟩, fun h => ⟨h.chain, h.last⟩⟩

instance (s : String) : Decidable (Tidy marks s) :=
  decidable_of_iff ((read .plain s.toList).2 = .plain ∧
      (∀ t ∈ tokens s, t.isText = true) ∧ Clean marks (tokens s))
    ⟨fun h => ⟨h.1, h.2.1, h.2.2⟩, fun h => ⟨h.closed, h.text, h.clean⟩⟩

namespace Tidy

variable {s t : String}

theorem read_eq (h : Tidy marks s) : read .plain s.toList = (tokens s, .plain) := by
  refine Prod.ext ?_ h.closed
  unfold tokens
  rw [h.closed]
  exact (List.append_nil _).symm

theorem of_read {ts : List Token} (h : read .plain s.toList = (ts, .plain))
    (htext : ∀ t ∈ ts, t.isText = true) (hclean : Clean marks ts) : Tidy marks s := by
  have htokens : tokens s = ts := by
    unfold tokens
    rw [h]
    exact List.append_nil ts
  exact ⟨by rw [h], htokens ▸ htext, htokens ▸ hclean⟩

theorem empty : Tidy marks "" := .of_read rfl (by simp) .nil

theorem read_append (hs : Tidy marks s) (ht : Tidy marks t) :
    read .plain (s ++ t).toList = (tokens s ++ tokens t, .plain) := by
  rw [String.toList_append, Sql.read_append, hs.read_eq, ht.read_eq]

theorem append (hs : Tidy marks s) (ht : Tidy marks t) : Tidy marks (s ++ t) :=
  .of_read (hs.read_append ht) (List.forall_mem_append.2 ⟨hs.text, ht.text⟩)
    (hs.clean.append ht.clean)

theorem tokens_append (hs : Tidy marks s) (ht : Tidy marks t) :
    tokens (s ++ t) = tokens s ++ tokens t :=
  congrArg Prod.fst ((hs.append ht).read_eq.symm.trans (hs.read_append ht))

theorem concat {parts : List String} (h : ∀ s ∈ parts, Tidy marks s) :
    Tidy marks (Text.concat parts) := by
  induction parts with
  | nil => exact Text.concat_nil ▸ empty
  | cons s parts ih =>
    obtain ⟨hs, hparts⟩ := List.forall_mem_cons.1 h
    rw [Text.concat_cons]
    exact hs.append (ih hparts)

theorem tokens_concat {parts : List String} (h : ∀ s ∈ parts, Tidy marks s) :
    tokens (Text.concat parts) = parts.flatMap tokens := by
  induction parts with
  | nil => rfl
  | cons s parts ih =>
    obtain ⟨hs, hparts⟩ := List.forall_mem_cons.1 h
    rw [Text.concat_cons, hs.tokens_append (.concat hparts), ih hparts, List.flatMap_cons]

theorem joinWith {separator : String} (hsep : Tidy marks separator) {parts : List String}
    (h : ∀ s ∈ parts, Tidy marks s) : Tidy marks (Text.joinWith separator parts) := by
  unfold Text.joinWith
  induction parts with
  | nil => exact String.intercalate_nil ▸ empty
  | cons s parts ih =>
    obtain ⟨hs, hparts⟩ := List.forall_mem_cons.1 h
    cases parts with
    | nil => exact String.intercalate_singleton ▸ hs
    | cons t parts =>
      rw [String.intercalate_cons_cons]
      exact (hs.append hsep).append (ih hparts)

theorem mono {marks' : List (Char × Char)} (h : Tidy marks s)
    (hsub : ∀ p ∈ marks', p ∈ marks) : Tidy marks' s :=
  ⟨h.closed, h.text, h.clean.mono hsub⟩

/-- what a quoted name holds is no letter of a pair -/
theorem quoted (name : String) : Tidy marks (Sql.quoted name) := by
  have hinside : ∀ cs : List Char, ∃ ds : List Char,
      read .inside (doubled cs ++ ['"']) = (ds.map .quoted, .plain) := by
    intro cs
    induction cs with
    | nil => exact ⟨['"'], rfl⟩
    | cons c cs ih =>
      obtain ⟨ds, hds⟩ := ih
      rw [doubled_cons, List.append_assoc]
      by_cases hc : c = '"'
      · -- the quote ends the name, and the one after it begins it again
        refine ⟨'"' :: '"' :: ds, ?_⟩
        subst hc
        simp [read, Mode.step, Mode.start, hds]
      · refine ⟨c :: ds, ?_⟩
        simp [read, Mode.step, hc, hds]
  obtain ⟨ds, hds⟩ := hinside name.toList
  have hread : read .plain (Sql.quoted name).toList = (('"' :: ds).map .quoted, .plain) := by
    rw [Sql.quoted, String.toList_ofList, List.cons_append]
    simp only [read, Mode.step, Mode.start, if_true, hds]
    rfl
  refine .of_read hread (fun t ht => ?_) (.of_forall fun t ht p _ => ?_)
  · obtain ⟨c, _, rfl⟩ := List.mem_map.1 ht
    rfl
  · obtain ⟨c, _, rfl⟩ := List.mem_map.1 ht
    rfl

/-- a number is no letter of a pair -/
theorem number (hmarks : ∀ p ∈ marks, p.1.isDigit = false) (n : Nat) :
    Tidy marks (toString n) := by
  have hplain : ∀ cs : List Char, (∀ c ∈ cs, c.isDigit = true) →
      read .plain cs = (cs.map .char, .plain) := by
    intro cs hcs
    induction cs with
    | nil => rfl
    | cons c cs ih =>
      obtain ⟨hc, hcs⟩ := List.forall_mem_cons.1 hcs
      have hquote : c ≠ '"' := by
        rintro rfl
        cases hc
      have hdollar : c ≠ '$' := by
        rintro rfl
        cases hc
      have hstep : Mode.plain.step c = ([.char c], .plain) := by
        simp [Mode.step, Mode.start, hquote, hdollar]
      simp only [read, hstep, ih hcs, List.map_cons, List.singleton_append]
  have hdigits : ∀ c ∈ (toString n).toList, c.isDigit = true := by
    rw [Nat.toString_eq_ofList_toDigits, String.toList_ofList]
    exact fun c hc => Nat.isDigit_of_mem_toDigits (by decide) (by decide) hc
  refine .of_read (hplain _ hdigits) (fun t ht => ?_) (.of_forall fun t ht p hp => ?_)
  · obtain ⟨c, _, rfl⟩ := List.mem_map.1 ht
    rfl
  · obtain ⟨c, hc, rfl⟩ := List.mem_map.1 ht
    simp only [Token.is, decide_eq_false_iff_not]
    rintro rfl
    have hdigit := hdigits _ hc
    rw [hmarks p hp] at hdigit
    cases hdigit

end Tidy

/-! ### fragments that are read piece by piece -/

namespace Fragment

/-- the placeholders of a statement, in the order of its text -/
def placeholders (f : Fragment) : List Nat := (tokens f.text).filterMap Token.place?

/-- the text of a statement with every placeholder replaced by its value; casts stand after the
values as they are written -/
def filled (f : Fragment) : List Token := (tokens f.text).map (Token.fill f.params)

/-- what a legible fragment is read as, if its placeholders begin with number `n` -/
def numbered (n : Nat) : Fragment → List Token
  | [] => []
  | .text s :: f => tokens s ++ numbered n f
  | .param _ (some type) :: f =>
    .place n :: (tokens (Text.concat ["::", type]) ++ numbered (n + 1) f)
  | .param _ none :: f => .place n :: numbered (n + 1) f

/-- the same with the values themselves -/
def spelled : Fragment → List Token
  | [] => []
  | .text s :: f => tokens s ++ spelled f
  | .param v (some type) :: f =>
    .value v :: (tokens (Text.concat ["::", type]) ++ spelled f)
  | .param v none :: f => .value v :: spelled f

/-- fragments of tidy texts and of values; after a value without a cast stands a text that does not
go on with its number -/
inductive Legible (marks : List (Char × Char)) : Fragment → Prop where
  | nil : Legible marks []
  | text {s : String} {f : Fragment} (hs : Tidy marks s) (hf : Legible marks f) :
      Legible marks (.text s :: f)
  | cast {v : SqlValue} {type : String} {f : Fragment} (ht : Tidy marks (Text.concat ["::", type]))
      (hf : Legible marks f) : Legible marks (.param v (some type) :: f)
  | bare {v : SqlValue} {s : String} {f : Fragment}
      (hs : EndsNumber s.toList) (hf : Legible marks (.text s :: f)) :
      Legible marks (.param v none :: .text s :: f)

theorem spelled_append (f g : Fragment) : spelled (f ++ g) = spelled f ++ spelled g := by
  induction f with
  | nil => rfl
  | cons p f ih =>
    cases p with
    | text s => simp [spelled, ih]
    | param v type => cases type <;> simp [spelled, ih]

namespace Legible

variable {f g : Fragment}

theorem append (hf : Legible marks f) (hg : Legible marks g) : Legible marks (f ++ g) := by
  induction hf with
  | nil => exact hg
  | text hs _ ih => exact .text hs ih
  | cast ht _ ih => exact .cast ht ih
  | bare hs _ ih => exact .bare hs ih

theorem mono {marks' : List (Char × Char)} (h : Legible marks f)
    (hsub : ∀ p ∈ marks', p ∈ marks) : Legible marks' f := by
  induction h with
  | nil => exact .nil
  | text hs _ ih => exact .text (hs.mono hsub) ih
  | cast ht _ ih => exact .cast (ht.mono hsub) ih
  | bare hs _ ih => exact .bare hs ih

theorem sql {parts : List String} (h : ∀ s ∈ parts, Tidy marks s) :
    Legible marks (Sql.sql parts) :=
  .text (.concat h) .nil

theorem bound (v : SqlValue) {type : String} (h : Tidy marks (Text.concat ["::", type])) :
    Legible marks (Sql.bound v type) :=
  .cast h .nil

theorem joinWith {separator : String} (hsep : Tidy marks separator) {fs : List Fragment}
    (h : ∀ f ∈ fs, Legible marks f) : Legible marks (Fragment.joinWith separator fs) := by
  induction fs with
  | nil => exact .nil
  | cons f fs ih =>
    obtain ⟨hf, hfs⟩ := List.forall_mem_cons.1 h
    cases fs with
    | nil => exact hf
    | cons g fs => exact hf.append (.text hsep (ih hfs))

/-- the reader goes from piece to piece -/
theorem read_textsFrom (h : Legible marks f) (n : Nat) :
    read .plain (Text.concat (textsFrom n f)).toList = (numbered n f, .plain) := by
  induction h generalizing n with
  | nil => rfl
  | @text s f hs hf ih =>
    rw [textsFrom, Text.concat_cons, String.toList_append, read_append, hs.read_eq, ih, numbered]
  | @cast v type f ht hf ih =>
    have hsplit : (Text.concat (textsFrom n (.param v (some type) :: f))).toList =
        (Text.concat ["$", toString n]).toList ++
          ((Text.concat ["::", type]).toList ++ (Text.concat (textsFrom (n + 1) f)).toList) := by
      simp [textsFrom, placeholder]
    have hcolon : EndsNumber
        ((Text.concat ["::", type]).toList ++ (Text.concat (textsFrom (n + 1) f)).toList) :=
      ⟨':', ':' :: type.toList ++ (Text.concat (textsFrom (n + 1) f)).toList,
        by simp, by decide⟩
    rw [hsplit, read_placeholder n hcolon, read_append, ht.read_eq, ih, numbered]
  | @bare v s f hs hf ih =>
    have hnext : EndsNumber (Text.concat (textsFrom (n + 1) (.text s :: f))).toList := by
      obtain ⟨c, cs, hcs, hc⟩ := hs
      refine ⟨c, cs ++ (Text.concat (textsFrom (n + 1) f)).toList, ?_, hc⟩
      rw [textsFrom, Text.concat_cons, String.toList_append, hcs, List.cons_append]
    rw [textsFrom, Text.concat_cons, placeholder, String.toList_append, read_placeholder n hnext,
      ih]
    rfl

theorem tokens_text (h : Legible marks f) : tokens f.text = numbered 1 f := by
  unfold tokens Fragment.text
  rw [h.read_textsFrom 1]
  exact List.append_nil _

/-- the placeholders are numbered in the order of the text, each of them once -/
theorem placeholders (h : Legible marks f) :
    f.placeholders = List.range' 1 f.params.length := by
  have hnone : ∀ {s : String}, Tidy marks s → (tokens s).filterMap Token.place? = [] := fun hs =>
    List.filterMap_eq_nil_iff.2 fun t ht => Token.place?_of_isText (hs.text t ht)
  have hnumbered : ∀ n, (numbered n f).filterMap Token.place? =
      List.range' n f.params.length := by
    induction h with
    | nil => exact fun _ => rfl
    | text hs _ ih =>
      intro n
      rw [numbered, List.filterMap_append, hnone hs, List.nil_append, ih, params]
    | cast ht _ ih =>
      intro n
      rw [numbered, List.filterMap_cons, Token.place?, List.filterMap_append, hnone ht, ih, params,
        List.length_cons, List.range'_succ]
      rfl
    | @bare v s f _ _ ih =>
      intro n
      have hparams : params (.param v none :: .text s :: f) = v :: params (.text s :: f) := rfl
      rw [hparams, List.length_cons, List.range'_succ, ← ih]
      rfl
  unfold Fragment.placeholders
  rw [h.tokens_text, hnumbered]

/-- each placeholder is that of the value in its place -/
theorem filled (h : Legible marks f) : f.filled = spelled f := by
  have htext : ∀ {s : String} (params : List SqlValue), Tidy marks s →
      (tokens s).map (Token.fill params) = tokens s := by
    intro s params hs
    conv_rhs => rw [← List.map_id (tokens s)]
    exact List.map_congr_left fun t ht => Token.fill_of_isText (hs.text t ht) params
  have hplace : ∀ (before : List SqlValue) (v : SqlValue) (after : List SqlValue),
      (Token.place (before.length + 1)).fill (before ++ v :: after) = .value v := by
    intro before v after
    simp [Token.fill]
  -- the values before those of the fragment have been used up
  have hnumbered : ∀ before : List SqlValue,
      (numbered (before.length + 1) f).map (Token.fill (before ++ f.params)) = spelled f := by
    induction h with
    | nil => exact fun _ => rfl
    | text hs _ ih =>
      intro before
      rw [numbered, List.map_append, params, htext _ hs, ih, spelled]
    | @cast v type f ht _ ih =>
      intro before
      have hrest := ih (before ++ [v])
      rw [List.length_append, List.length_singleton, List.append_assoc, List.singleton_append]
        at hrest
      rw [numbered, params, List.map_cons, hplace, List.map_append, htext _ ht, hrest, spelled]
    | @bare v s f _ _ ih =>
      intro before
      have hrest := ih (before ++ [v])
      rw [List.length_append, List.length_singleton, List.append_assoc, List.singleton_append]
        at hrest
      have hparams : params (.param v none :: .text s :: f) = v :: params (.text s :: f) := rfl
      rw [numbered, List.map_cons, hparams, hplace, hrest]
      rfl
  unfold Fragment.filled
  rw [h.tokens_text]
  exact hnumbered []

theorem clean (h : Legible marks f) : Clean marks (spelled f) := by
  induction h with
  | nil => exact .nil
  | text hs _ ih => exact hs.clean.append ih
  | cast ht _ ih => exact (Clean.value _).append (ht.clean.append ih)
  | bare _ _ ih => exact (Clean.value _).append ih

end Legible
end Fragment
end EntityAccess.Sql
