import EntityAccess.Json.Source.Printer

/-!
# JSON text that is read back

A source of texts, truth values and nulls is written as a text that is read as the same source,
whatever follows it.

* `readString_escapeChar`, `readString_quote` : one character inside quotes, and all of them;
* `Source.Plain` : sources of texts, truth values and nulls;
* `readItems_write`, `readFields_write` : items and fields one after another;
* `Source.Plain.readsBack`, `read_write` : whole sources, and whole texts.
-/

namespace EntityAccess.Json

/-! ### texts -/

theorem hexValue?_hexDigit : ∀ n < 16, hexValue? (hexDigit n) = some n := by decide

/-- an escaped control character stands for itself -/
theorem readString_control (read rest : List Char) {c : Char} (h : c.toNat < 32) :
    readString ⟨.plain, read, none, true⟩
        ('\\' :: 'u' :: '0' :: '0' :: hexDigit (c.toNat / 16) :: hexDigit (c.toNat % 16) :: rest) =
      readString ⟨.plain, c :: read, none, true⟩ rest := by
  have hhigh := hexValue?_hexDigit (c.toNat / 16) (by omega)
  have hlow := hexValue?_hexDigit (c.toNat % 16) (by omega)
  have hzero : hexValue? '0' = some 0 := by decide
  have hunit : c.toNat / 16 * 16 + c.toNat % 16 = c.toNat := Nat.div_add_mod' _ _
  have hpush : StringState.pushUnit ⟨.hex 0 (c.toNat / 16), read, none, true⟩ c.toNat =
      ⟨.plain, c :: read, none, true⟩ := by
    unfold StringState.pushUnit
    dsimp only
    rw [if_neg (by omega), if_neg (by omega), Char.ofNat_toNat]
    rfl
  simp [readString, hzero, hhigh, hlow, hunit, hpush]

theorem readString_escaped (read rest : List Char) {e c : Char} (hletter : e ≠ 'u')
    (h : escaped? e = some c) :
    readString ⟨.plain, read, none, true⟩ ('\\' :: e :: rest) =
      readString ⟨.plain, c :: read, none, true⟩ rest := by
  simp [readString, hletter, h, StringState.push]

/-- a character inside quotes is read as it is -/
theorem readString_escapeChar (read rest : List Char) (c : Char) :
    readString ⟨.plain, read, none, true⟩ (escapeChar c ++ rest) =
      readString ⟨.plain, c :: read, none, true⟩ rest := by
  have hnumber : ∀ n, c.toNat = n → Char.ofNat n = c := fun n hn => by
    rw [← hn, Char.ofNat_toNat]
  unfold escapeChar
  split
  · next h => exact readString_escaped read rest (by decide) (by rw [h]; rfl)
  split
  · next h => exact readString_escaped read rest (by decide) (by rw [h]; rfl)
  split
  · next h => exact readString_escaped read rest (by decide) (by rw [h]; rfl)
  split
  · next h => exact readString_escaped read rest (by decide) (by rw [h]; rfl)
  split
  · next h => exact readString_escaped read rest (by decide) (by rw [h]; rfl)
  split
  · next h => exact readString_escaped read rest (by decide) (congrArg some (hnumber 8 h))
  split
  · next h => exact readString_escaped read rest (by decide) (congrArg some (hnumber 12 h))
  split
  · next h => exact readString_control read rest h
  · next hquote hbackslash _ _ _ _ _ h =>
    simp [readString, hquote, hbackslash, h, StringState.push]

theorem toList_quote (s : String) :
    (quote s).toList = '"' :: (s.toList.flatMap escapeChar ++ ['"']) := by
  have hpush : ∀ (cs : List Char) (out : String),
      (cs.foldl String.push out).toList = out.toList ++ cs := by
    intro cs
    induction cs with
    | nil => simp
    | cons c cs ih =>
      intro out
      rw [List.foldl_cons, ih, String.toList_push, List.append_assoc, List.singleton_append]
  have hfold : ∀ (cs : List Char) (out : String),
      (cs.foldl (fun out c => (escapeChar c).foldl String.push out) out).toList =
        out.toList ++ cs.flatMap escapeChar := by
    intro cs
    induction cs with
    | nil => simp
    | cons c cs ih =>
      intro out
      rw [List.foldl_cons, ih, hpush, List.flatMap_cons, List.append_assoc]
  unfold quote
  rw [String.toList_push, String.foldl_eq_foldl_toList, hfold]
  rfl

/-- a text in quotes is read back, and what follows it is left -/
theorem readString_quote (s : String) (rest : List Char) :
    readString .start (s.toList.flatMap escapeChar ++ '"' :: rest) = (some s, some rest) := by
  have hread : ∀ cs read : List Char,
      readString ⟨.plain, read, none, true⟩ (cs.flatMap escapeChar ++ '"' :: rest) =
        (some (String.ofList (read.reverse ++ cs)), some rest) := by
    intro cs
    induction cs with
    | nil =>
      intro read
      simp [readString]
    | cons c cs ih =>
      intro read
      rw [List.flatMap_cons, List.append_assoc, readString_escapeChar, ih]
      simp
  rw [StringState.start, hread, List.reverse_nil, List.nil_append, String.ofList_toList]

/-! ### the characters of a source -/

namespace Source

/-- an object with these fields -/
abbrev fieldsOf (fields : List (String × Source)) : List (Option String × Source) :=
  fields.map fun f => (some f.1, f.2)

theorem toList_writeArr (x : Source) (xs : List Source) :
    (arr (x :: xs)).write.toList = '[' :: (x.write.toList ++ ((writeRest xs).toList ++ [']'])) := by
  simp [write]

theorem toList_writeRest (x : Source) (xs : List Source) :
    (writeRest (x :: xs)).toList = ',' :: (x.write.toList ++ (writeRest xs).toList) := by
  simp [writeRest_cons]

/-- a key in quotes and its colon -/
def keyText (key : String) : List Char := '"' :: (key.toList.flatMap escapeChar ++ ['"', ':'])

theorem toList_writeKey (key : String) : (writeKey (some key)).toList = keyText key := by
  simp [writeKey, keyText, toList_quote]

theorem toList_writeObj (f : String × Source) (fs : List (String × Source)) :
    (obj (fieldsOf (f :: fs))).write.toList = '\x7b' :: (keyText f.1 ++ (f.2.write.toList ++
      ((writeMore (fieldsOf fs)).toList ++ ['\x7d']))) := by
  simp [write, toList_writeKey]

theorem toList_writeMore (f : String × Source) (fs : List (String × Source)) :
    (writeMore (fieldsOf (f :: fs))).toList =
      ',' :: (keyText f.1 ++ (f.2.write.toList ++ (writeMore (fieldsOf fs)).toList)) := by
  simp [writeMore_cons, toList_writeKey]

end Source

/-! ### sources -/

open Source (fieldsOf keyText toList_writeArr toList_writeRest toList_writeObj toList_writeMore)

/-- texts, truth values and nulls, in arrays and in objects with keys -/
inductive Source.Plain : Source → Prop where
  | null : Plain (.value .null)
  | bool (b : Bool) : Plain (.value (.bool b))
  | text (s : String) : Plain (.value (.str s))
  | arr {items : List Source} (h : ∀ x ∈ items, Plain x) : Plain (.arr items)
  | obj {fields : List (String × Source)} (h : ∀ f ∈ fields, Plain f.2) :
      Plain (.obj (fieldsOf fields))

/-- with enough fuel the text of a source is read back, and what follows it is left -/
def Source.ReadsBack (x : Source) : Prop :=
  ∀ fuel rest, x.write.toList.length ≤ fuel →
    readValue fuel (x.write.toList ++ rest) = (x, some rest)

theorem skipSpaces_cons {c : Char} (h : isSpace c = false) (cs : List Char) :
    skipSpaces (c :: cs) = c :: cs := by
  simp [skipSpaces, h]

/-- the text of a source begins with a character that ends no list and is no space -/
theorem Source.Plain.head {x : Source} (h : x.Plain) :
    ∃ c cs, x.write.toList = c :: cs ∧ isSpace c = false ∧ c ≠ ']' := by
  cases h with
  | null => exact ⟨'n', ['u', 'l', 'l'], by simp [Source.write, Json.write], by decide, by decide⟩
  | bool b =>
    cases b with
    | false =>
      exact ⟨'f', ['a', 'l', 's', 'e'], by simp [Source.write, Json.write], by decide, by decide⟩
    | true =>
      exact ⟨'t', ['r', 'u', 'e'], by simp [Source.write, Json.write], by decide, by decide⟩
  | text s =>
    refine ⟨'"', s.toList.flatMap escapeChar ++ ['"'], ?_, by decide, by decide⟩
    rw [Source.write_value, Json.write, toList_quote]
  | @arr items h =>
    cases items with
    | nil => exact ⟨'[', [']'], by simp [Source.write], by decide, by decide⟩
    | cons x xs => exact ⟨'[', _, toList_writeArr x xs, by decide, by decide⟩
  | @obj fields h =>
    cases fields with
    | nil => exact ⟨'\x7b', ['\x7d'], by simp [Source.write], by decide, by decide⟩
    | cons f fs => exact ⟨'\x7b', _, toList_writeObj f fs, by decide, by decide⟩

/-- the items of an array, the first of which is `x` -/
theorem readItems_write (items : List Source) (hitems : ∀ x ∈ items, x.ReadsBack) {x : Source}
    (hx : x.ReadsBack) (done : List Source) (rest : List Char) (fuel : Nat)
    (hfuel : x.write.toList.length + (Source.writeRest items).toList.length < fuel) :
    readItems fuel done (x.write.toList ++ ((Source.writeRest items).toList ++ ']' :: rest)) =
      (.arr (done.reverse ++ x :: items), some rest) := by
  induction items generalizing x done fuel with
  | nil =>
    cases fuel with
    | zero => omega
    | succ fuel =>
      rw [readItems, hx fuel _ (by omega)]
      simp [Source.writeRest_nil, skipSpaces_cons (c := ']') (by decide)]
  | cons y items ih =>
    obtain ⟨hy, hitems⟩ := List.forall_mem_cons.1 hitems
    rw [toList_writeRest, List.length_cons, List.length_append] at hfuel
    cases fuel with
    | zero => omega
    | succ fuel =>
      rw [readItems, hx fuel _ (by omega), toList_writeRest, List.cons_append, List.append_assoc]
      dsimp only
      rw [skipSpaces_cons (by decide)]
      show readItems fuel (x :: done) _ = _
      rw [ih hitems hy _ fuel (by omega)]
      simp

theorem readString_keyText (key : String) (rest : List Char) :
    ∃ cs, keyText key ++ rest = '"' :: cs ∧
      readString .start cs = (some key, some (':' :: rest)) := by
  refine ⟨key.toList.flatMap escapeChar ++ '"' :: ':' :: rest, ?_, readString_quote key _⟩
  simp [keyText]

/-- one field of an object: with a brace after it the object ends, with a comma another follows -/
theorem readFields_keyText {f : String × Source} (hf : f.2.ReadsBack)
    (done : List (Option String × Source)) (rest : List Char) {fuel : Nat}
    (hfuel : f.2.write.toList.length ≤ fuel) :
    readFields (fuel + 1) done (keyText f.1 ++ (f.2.write.toList ++ '\x7d' :: rest)) =
        (.obj ((some f.1, f.2) :: done).reverse, some rest) ∧
      readFields (fuel + 1) done (keyText f.1 ++ (f.2.write.toList ++ ',' :: rest)) =
        readFields fuel ((some f.1, f.2) :: done) rest := by
  have hquote := skipSpaces_cons (c := '"') (by decide)
  have hcolon := skipSpaces_cons (c := ':') (by decide)
  have hbrace := skipSpaces_cons (c := '\x7d') (by decide)
  have hcomma := skipSpaces_cons (c := ',') (by decide)
  constructor
  · obtain ⟨cs, hkey, hread⟩ := readString_keyText f.1 (f.2.write.toList ++ '\x7d' :: rest)
    rw [hkey, readFields]
    simp only [hquote, hread, hcolon, hf fuel _ hfuel, hbrace]
  · obtain ⟨cs, hkey, hread⟩ := readString_keyText f.1 (f.2.write.toList ++ ',' :: rest)
    rw [hkey, readFields]
    simp only [hquote, hread, hcolon, hf fuel _ hfuel, hcomma]

/-- the fields of an object, the first of which is `f` -/
theorem readFields_write (fields : List (String × Source)) (hfields : ∀ f ∈ fields, f.2.ReadsBack)
    {f : String × Source} (hf : f.2.ReadsBack) (done : List (Option String × Source))
    (rest : List Char) (fuel : Nat)
    (hfuel : f.2.write.toList.length + (Source.writeMore (fieldsOf fields)).toList.length < fuel) :
    readFields fuel done (keyText f.1 ++ (f.2.write.toList ++
        ((Source.writeMore (fieldsOf fields)).toList ++ '\x7d' :: rest))) =
      (.obj (done.reverse ++ fieldsOf (f :: fields)), some rest) := by
  induction fields generalizing f done fuel with
  | nil =>
    cases fuel with
    | zero => omega
    | succ fuel =>
      have hnone : (Source.writeMore (fieldsOf [])).toList = [] := by simp [Source.writeMore_nil]
      rw [hnone, List.nil_append, (readFields_keyText hf done rest (by omega)).1]
      simp
  | cons g fields ih =>
    obtain ⟨hg, hfields⟩ := List.forall_mem_cons.1 hfields
    rw [toList_writeMore, List.length_cons, List.length_append, List.length_append] at hfuel
    cases fuel with
    | zero => omega
    | succ fuel =>
      rw [toList_writeMore, List.cons_append, List.append_assoc, List.append_assoc,
        (readFields_keyText hf done _ (by omega)).2, ih hfields hg _ fuel (by omega)]
      simp

/-- some fuel is there -/
theorem Source.Plain.readsBack_of_succ {x : Source} (h : x.Plain)
    (hread : ∀ fuel rest, x.write.toList.length ≤ fuel + 1 →
      readValue (fuel + 1) (x.write.toList ++ rest) = (x, some rest)) : x.ReadsBack := by
  intro fuel rest hfuel
  cases fuel with
  | zero =>
    obtain ⟨_, _, hhead, _⟩ := h.head
    simp [hhead] at hfuel
  | succ fuel => exact hread fuel rest hfuel

/-- an array of sources that are read back -/
theorem Source.readsBack_arr {items : List Source} (h : ∀ x ∈ items, x.Plain)
    (hitems : ∀ x ∈ items, x.ReadsBack) : (Source.arr items).ReadsBack := by
  refine Plain.readsBack_of_succ (.arr h) fun fuel rest hfuel => ?_
  cases items with
  | nil => simp [Source.write, readValue, skipSpaces, isSpace]
  | cons x xs =>
    obtain ⟨hx, hxs⟩ := List.forall_mem_cons.1 hitems
    -- what the array begins with is not its end
    obtain ⟨c, cs, hhead, hspace, hend⟩ := (h x List.mem_cons_self).head
    rw [toList_writeArr] at hfuel ⊢
    simp only [List.length_cons, List.length_append, List.length_nil] at hfuel
    have hread := readItems_write xs hxs hx [] rest fuel (by omega)
    have hbracket := skipSpaces_cons (c := '[') (by decide)
    rw [List.cons_append, List.append_assoc, List.append_assoc, readValue, hbracket]
    rw [hhead, List.cons_append] at hread ⊢
    simpa [skipSpaces_cons hspace, hend] using hread

/-- an object of sources that are read back -/
theorem Source.readsBack_obj {fields : List (String × Source)} (h : ∀ f ∈ fields, f.2.Plain)
    (hfields : ∀ f ∈ fields, f.2.ReadsBack) : (Source.obj (fieldsOf fields)).ReadsBack := by
  refine Plain.readsBack_of_succ (.obj h) fun fuel rest hfuel => ?_
  cases fields with
  | nil => simp [Source.write, readValue, skipSpaces, isSpace]
  | cons f fs =>
    obtain ⟨hf, hfs⟩ := List.forall_mem_cons.1 hfields
    rw [toList_writeObj] at hfuel ⊢
    simp only [List.length_cons, List.length_append, List.length_nil] at hfuel
    have hread := readFields_write fs hfs hf [] rest fuel (by omega)
    have hbrace := skipSpaces_cons (c := '\x7b') (by decide)
    have hquote := skipSpaces_cons (c := '"') (by decide)
    obtain ⟨cs, hkey, _⟩ := readString_keyText f.1 (f.2.write.toList ++
      ((Source.writeMore (fieldsOf fs)).toList ++ '\x7d' :: rest))
    rw [hkey] at hread
    rw [List.cons_append, readValue, hbrace]
    simpa [hkey, hquote] using hread

/-- a source of texts, truth values and nulls is read back from its text -/
theorem Source.Plain.readsBack {x : Source} (h : x.Plain) : x.ReadsBack := by
  induction h with
  | null =>
    refine readsBack_of_succ .null fun fuel rest _ => ?_
    simp [Source.write, Json.write, readValue, readWord, skipSpaces, isSpace]
  | bool b =>
    refine readsBack_of_succ (.bool b) fun fuel rest _ => ?_
    cases b with
    | false => simp [Source.write, Json.write, readValue, readWord, skipSpaces, isSpace]
    | true => simp [Source.write, Json.write, readValue, readWord, skipSpaces, isSpace]
  | text s =>
    refine readsBack_of_succ (.text s) fun fuel rest _ => ?_
    rw [Source.write_value, Json.write, toList_quote, List.cons_append, List.append_assoc,
      readValue, skipSpaces_cons (by decide)]
    simp [readString_quote]
  | arr h ih => exact readsBack_arr h ih
  | obj h ih => exact readsBack_obj h ih

/-- a text that is written from a source says that source and nothing else -/
theorem read_write {x : Source} (h : x.Plain) : Source.read x.write = (x, some []) := by
  have hread := h.readsBack (x.write.toList.length + 1) [] (Nat.le_succ _)
  rw [List.append_nil] at hread
  exact hread

end EntityAccess.Json
