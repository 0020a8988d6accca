import EntityAccess.Filter.Key
import EntityAccess.Proofs.Filter.Separators

/-!
# keys are read back

A key is put together from names, and reading it gives the names again: the rules for identifiers
keep the three separators apart, at any depth of the path and for every operator.

* `splitPath_joinWith` : a path and what follows its last separator;
* `readFilterKey_filterKey`, `readFilterKey_fieldKey` : filter keys, with and without an operator;
* `readSortKey_sortKey` : sort keys, with and without a mark.
-/

namespace EntityAccess

open Text

/-! ### identifiers as characters -/

theorem isIdentifier_cases {s : String} (h : isIdentifier s = true) :
    ∃ c cs, s.toList = c :: cs ∧ isSmallLetter c = true ∧
      (∀ d ∈ c :: cs, isIdentifierChar d = true) ∧ underscoresApart (c :: cs) = true := by
  unfold isIdentifier isIdentifierChars at h
  split at h
  · simp at h
  · next c cs hs =>
    simp only [Bool.and_eq_true, decide_eq_true_eq] at h
    obtain ⟨⟨⟨hc, hcs⟩, _⟩, hapart⟩ := h
    refine ⟨c, cs, hs, hc, List.forall_mem_cons.2 ⟨?_, fun d hd => List.all_eq_true.1 hcs d hd⟩,
      hapart⟩
    exact (isIdentifierChar_iff c).2 (.inl hc)

theorem apart_of_isIdentifier {s : String} (h : isIdentifier s = true) :
    underscoresApart s.toList = true := by
  obtain ⟨c, cs, hs, _, _, hapart⟩ := isIdentifier_cases h
  rw [hs]
  exact hapart

theorem head_of_isIdentifier {s : String} (h : isIdentifier s = true) :
    s.toList.head? ≠ some '_' := by
  obtain ⟨c, cs, hs, hc, _, _⟩ := isIdentifier_cases h
  rw [hs]
  rintro heq
  obtain rfl : c = '_' := by simpa using heq
  revert hc
  decide

theorem ne_empty_of_isIdentifier {s : String} (h : isIdentifier s = true) : s ≠ "" := by
  obtain ⟨c, cs, hs, _⟩ := isIdentifier_cases h
  rintro rfl
  simp at hs

/-- an operator's token is formed like a name -/
theorem Operator.isIdentifier_token (op : Operator) : isIdentifier op.token = true := by
  cases op <;> decide +kernel

/-! ### keys as texts -/

/-- the key of a field at the end of a path -/
def Path.fieldKey (p : Path) (field : String) : String := joinWith relationSeparator (p ++ [field])

/-- the key of a field with an operator -/
def Path.filterKey (p : Path) (field : String) (op : Operator) : String :=
  concat [p.fieldKey field, operatorSeparator, op.token]

/-- the key of a field with the mark of its direction -/
def Path.sortKey (p : Path) (field : String) (descending : Bool) : String :=
  concat [if descending then "-" else "", p.fieldKey field]

theorem relationSeparator_toList : relationSeparator.toList = underscores 3 := rfl

theorem operatorSeparator_toList : operatorSeparator.toList = underscores 2 := rfl

theorem Path.filterKey_eq (p : Path) (field : String) (op : Operator) :
    p.filterKey field op =
      joinWith relationSeparator (p ++ [concat [field, operatorSeparator, op.token]]) := by
  unfold filterKey fieldKey
  rw [concat_cons, concat_cons field]
  generalize concat [operatorSeparator, op.token] = suffix
  unfold joinWith
  cases p with
  | nil => simp
  | cons name p =>
    rw [String.intercalate_append_of_ne_nil (by simp) (by simp),
      String.intercalate_append_of_ne_nil (by simp) (by simp)]
    simp [String.append_assoc]

section

variable {p : Path} {field : String}

/-! ### the path -/

/-- a path is read back in front of any tail in which the separator does not occur -/
theorem splitPath_joinWith (hp : ∀ name ∈ p, isIdentifier name = true) {tail : String}
    (hhead : tail.toList.head? ≠ some '_')
    (hcut : lastCut relationSeparator.toList tail.toList = none) :
    splitPath (joinWith relationSeparator (p ++ [tail])) = (p, tail) := by
  unfold splitPath splitLast
  by_cases hnil : p = []
  · subst hnil
    simp [joinWith, hcut]
  · have hkey : joinWith relationSeparator (p ++ [tail]) =
        joinWith relationSeparator p ++ relationSeparator ++ tail := by
      unfold joinWith
      rw [String.intercalate_append_of_ne_nil hnil (by simp)]
      simp
    have hsep := lastCut_separator 2 hhead hcut
    have happ := lastCut_append_some hsep (joinWith relationSeparator p).toList
    rw [hkey, String.toList_append, String.toList_append, List.append_assoc,
      relationSeparator_toList, happ]
    have hsplit := splitBy_joinWith relationSeparator_toList hnil
      fun s hs => apart_of_isIdentifier (hp s hs)
    simp [hsplit]

theorem splitPath_fieldKey (hp : ∀ name ∈ p, isIdentifier name = true)
    (hf : isIdentifier field = true) : splitPath (p.fieldKey field) = (p, field) :=
  splitPath_joinWith hp (head_of_isIdentifier hf) (lastCut_of_apart (apart_of_isIdentifier hf) 1)

/-- a field and an operator -/
theorem suffixed_toList (op : Operator) :
    (concat [field, operatorSeparator, op.token]).toList =
      field.toList ++ (underscores 2 ++ op.token.toList) := by
  rw [toList_concat]
  simp [operatorSeparator_toList]

theorem splitPath_filterKey (hp : ∀ name ∈ p, isIdentifier name = true)
    (hf : isIdentifier field = true) (op : Operator) :
    splitPath (p.filterKey field op) = (p, concat [field, operatorSeparator, op.token]) := by
  have htoken := op.isIdentifier_token
  rw [Path.filterKey_eq]
  refine splitPath_joinWith hp ?_ ?_
  · obtain ⟨c, cs, hs, _⟩ := isIdentifier_cases hf
    have hhead := head_of_isIdentifier hf
    rw [suffixed_toList]
    rw [hs] at hhead ⊢
    exact hhead
  · -- two underscores in front of a token are one too few for the separator of relationships
    rw [suffixed_toList, relationSeparator_toList,
      lastCut_append_of_apart (apart_of_isIdentifier hf) 1,
      lastCut_of_lt (by omega) (head_of_isIdentifier htoken)
        (lastCut_of_apart (apart_of_isIdentifier htoken) 1)]
    rfl

/-! ### the operator -/

theorem readTail_field (hf : isIdentifier field = true) : readTail field = .ok (field, .exact) := by
  unfold readTail splitLast
  rw [operatorSeparator_toList, lastCut_of_apart (apart_of_isIdentifier hf) 0]
  rfl

theorem readTail_suffixed (hf : isIdentifier field = true) (op : Operator) :
    readTail (concat [field, operatorSeparator, op.token]) = .ok (field, op) := by
  have htoken := op.isIdentifier_token
  unfold readTail splitLast
  rw [suffixed_toList, operatorSeparator_toList,
    lastCut_append_of_apart (apart_of_isIdentifier hf) 0,
    lastCut_separator 1 (head_of_isIdentifier htoken)
      (lastCut_of_apart (apart_of_isIdentifier htoken) 0)]
  simp [Operator.ofToken, op.ofToken?_token, bind, Except.bind, pure, Except.pure]

/-! ### whole keys -/

theorem isWellFormed_names (hp : ∀ name ∈ p, isIdentifier name = true)
    (hf : isIdentifier field = true) : isWellFormed p field = true := by
  unfold isWellFormed
  have hall : p.all (· != "") = true :=
    List.all_eq_true.2 fun name hn => by simpa using ne_empty_of_isIdentifier (hp name hn)
  rw [hall]
  simpa using ne_empty_of_isIdentifier hf

theorem readFilterKey_filterKey (hp : ∀ name ∈ p, isIdentifier name = true)
    (hf : isIdentifier field = true) (op : Operator) :
    readFilterKey (p.filterKey field op) = .ok ⟨p, field, op⟩ := by
  rw [readFilterKey_eq, splitPath_filterKey hp hf, readTail_suffixed hf]
  simp [isWellFormed_names hp hf, bind, Except.bind, pure, Except.pure]

theorem readFilterKey_fieldKey (hp : ∀ name ∈ p, isIdentifier name = true)
    (hf : isIdentifier field = true) :
    readFilterKey (p.fieldKey field) = .ok ⟨p, field, .exact⟩ := by
  rw [readFilterKey_eq, splitPath_fieldKey hp hf, readTail_field hf]
  simp [isWellFormed_names hp hf, bind, Except.bind, pure, Except.pure]

end

/-! ### sort keys -/

theorem range_of_isIdentifierChar {c : Char} (h : isIdentifierChar c = true) :
    (97 ≤ c.toNat ∧ c.toNat ≤ 122) ∨ (48 ≤ c.toNat ∧ c.toNat ≤ 57) ∨ c.toNat = 95 := by
  rcases (isIdentifierChar_iff c).1 h with hc | hc | rfl
  · unfold isSmallLetter at hc
    simp only [Bool.and_eq_true, decide_eq_true_eq, Char.le_def, UInt32.le_iff_toNat_le] at hc
    exact .inl hc
  · unfold Char.isDigit at hc
    simp only [Bool.and_eq_true, decide_eq_true_eq, ge_iff_le, UInt32.le_iff_toNat_le] at hc
    exact .inr (.inl hc)
  · exact .inr (.inr rfl)

theorem isBlank_of_isIdentifierChar {c : Char} (h : isIdentifierChar c = true) :
    isBlank c = false := by
  have hrange := range_of_isIdentifierChar h
  unfold isBlank
  simp only [Bool.or_eq_false_iff, Bool.and_eq_false_iff, decide_eq_false_iff_not,
    beq_eq_false_iff_ne]
  omega

/-- a text without blanks has none at its ends -/
theorem trim_eq_self {s : String} (h : ∀ c ∈ s.toList, isBlank c = false) : trim s = s := by
  have hstart : ∀ cs : List Char, (∀ c ∈ cs, isBlank c = false) → trimStart cs = cs := by
    intro cs hcs
    cases cs with
    | nil => rfl
    | cons c cs => exact trimStart_eq_self (hcs c List.mem_cons_self) cs
  unfold trim trimEnd
  rw [hstart _ h, hstart _ fun c hc => h c (List.mem_reverse.1 hc)]
  simp

theorem mem_joinWith {c : Char} {sep : String} {parts : List String}
    (h : c ∈ (joinWith sep parts).toList) : c ∈ sep.toList ∨ ∃ s ∈ parts, c ∈ s.toList := by
  unfold joinWith at h
  rw [String.toList_intercalate] at h
  induction parts with
  | nil => simp at h
  | cons s parts ih =>
    cases parts with
    | nil =>
      right
      exact ⟨s, List.mem_cons_self, by simpa using h⟩
    | cons t parts =>
      rw [List.map_cons, List.map_cons, List.intercalate_cons_cons, List.mem_append,
        List.mem_append] at h
      rcases h with (h | h) | h
      · exact .inr ⟨s, List.mem_cons_self, h⟩
      · exact .inl h
      · rcases ih h with hsep | ⟨u, hu, hc⟩
        · exact .inl hsep
        · exact .inr ⟨u, List.mem_cons_of_mem s hu, hc⟩

theorem isIdentifierChar_of_mem_fieldKey {p : Path} {field : String}
    (hp : ∀ name ∈ p, isIdentifier name = true) (hf : isIdentifier field = true) {c : Char}
    (h : c ∈ (p.fieldKey field).toList) : isIdentifierChar c = true := by
  rcases mem_joinWith h with hsep | ⟨s, hs, hc⟩
  · rw [relationSeparator_toList] at hsep
    obtain rfl := List.eq_of_mem_replicate hsep
    decide
  · have hid : isIdentifier s = true := by
      rcases List.mem_append.1 hs with hin | hin
      · exact hp s hin
      · obtain rfl : s = field := by simpa using hin
        exact hf
    obtain ⟨d, ds, hd, _, hall, _⟩ := isIdentifier_cases hid
    exact hall c (hd ▸ hc)

theorem readSortKey_sortKey {p : Path} {field : String}
    (hp : ∀ name ∈ p, isIdentifier name = true) (hf : isIdentifier field = true)
    (descending : Bool) :
    readSortKey (p.sortKey field descending) = .ok ⟨p, field, descending⟩ := by
  have hchars : ∀ c ∈ (p.fieldKey field).toList, isIdentifierChar c = true :=
    fun c hc => isIdentifierChar_of_mem_fieldKey hp hf hc
  have htrim : trim (p.sortKey field descending) = p.sortKey field descending := by
    refine trim_eq_self fun c hc => ?_
    unfold Path.sortKey at hc
    rw [toList_concat] at hc
    simp only [List.flatMap_cons, List.flatMap_nil, List.append_nil, List.mem_append] at hc
    rcases hc with hmark | hkey
    · cases descending with
      | false => simp at hmark
      | true =>
        obtain rfl : c = '-' := by simpa using hmark
        decide
    · exact isBlank_of_isIdentifierChar (hchars c hkey)
  unfold readSortKey
  rw [htrim]
  cases descending with
  | true =>
    have hlist : (p.sortKey field true).toList = '-' :: (p.fieldKey field).toList := by
      unfold Path.sortKey
      rw [toList_concat]
      simp
    simp only [hlist, String.ofList_toList, splitPath_fieldKey hp hf, isWellFormed_names hp hf,
      if_true]
  | false =>
    have hkey : p.sortKey field false = p.fieldKey field := by
      unfold Path.sortKey
      simp
    have hno : ∀ cs, (p.fieldKey field).toList ≠ '-' :: cs := by
      intro cs hcs
      have hminus := hchars '-' (by rw [hcs]; exact List.mem_cons_self)
      revert hminus
      decide
    rw [hkey]
    dsimp only
    split
    · next cs hcs => exact absurd hcs (hno cs)
    · simp only [splitPath_fieldKey hp hf, isWellFormed_names hp hf, if_true]

end EntityAccess
