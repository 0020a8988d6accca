import EntityAccess.Proofs.Filter.Keys
import EntityAccess.Proofs.Outcome

/-!
# keys are put together again

Whatever text is read as a key is made up of what was read: the parts of the path and the field with
the separator of relationships between them, and then the operator, unless there is none.  This
holds of every text, however its underscores run; that the parts are read back needs them to be
names.

* `intercalate_piecesFrom`, `joinWith_splitBy` : the pieces between separators make up the text;
* `lastCut_eq_none_iff` : a text without a cut is a text without the separator;
* `eq_of_readFilterKey` : a filter key is made up of its parts;
* `commaItems_joinWith`, `readSortList_joinWith` : items and sort keys between commas;
* `filter_keys_rendered` : keys and their parts, both ways.
-/

namespace EntityAccess

namespace Text

/-! ### pieces -/

theorem piecesFrom_ne_nil (sep : List Char) (skip : Nat) (cur cs : List Char) :
    piecesFrom sep skip cur cs ≠ [] := by
  induction cs generalizing skip cur with
  | nil => cases skip <;> exact List.cons_ne_nil _ _
  | cons c cs ih =>
    cases skip with
    | succ skip => exact ih skip cur
    | zero =>
      rw [piecesFrom_cons]
      split
      · exact List.cons_ne_nil _ _
      · exact ih 0 (c :: cur)

/-- the piece that is being read, and the text after the separator that is being passed over -/
theorem intercalate_piecesFrom {sep : List Char} (hsep : sep ≠ []) (skip : Nat)
    (cur cs : List Char) :
    sep.intercalate (piecesFrom sep skip cur cs) = cur.reverse ++ cs.drop skip := by
  induction cs generalizing skip cur with
  | nil => cases skip <;> simp [piecesFrom]
  | cons c cs ih =>
    cases skip with
    | succ skip => exact ih skip cur
    | zero =>
      rw [piecesFrom_cons]
      split
      · next hcut =>
        obtain ⟨rest, hrest⟩ := Option.isSome_iff_exists.1 hcut
        have happ : c :: cs = sep ++ rest := append_of_afterStart hrest
        have hdrop : cs.drop (sep.length - 1) = rest := by
          obtain ⟨s, sep, rfl⟩ := List.exists_cons_of_ne_nil hsep
          obtain ⟨_, rfl⟩ := List.cons.inj happ
          simp
        rw [List.intercalate_cons_of_ne_nil (piecesFrom_ne_nil _ _ _ _), ih, hdrop,
          List.reverse_nil, List.nil_append, List.append_assoc, ← happ, List.drop_zero]
      · rw [ih]
        simp

/-- the pieces of a text, with the separator between them, make up the text -/
theorem joinWith_splitBy {sep : String} (hsep : sep ≠ "") (s : String) :
    joinWith sep (splitBy sep s) = s := by
  have hchars : sep.toList ≠ [] := fun h => hsep (String.toList_eq_nil_iff.1 h)
  apply String.toList_inj.1
  unfold joinWith splitBy pieces
  rw [String.toList_intercalate, List.map_map]
  have hid : String.toList ∘ String.ofList = id := funext fun cs => String.toList_ofList
  rw [hid, List.map_id, intercalate_piecesFrom hchars]
  simp

theorem splitBy_ne_nil (sep s : String) : splitBy sep s ≠ [] :=
  fun h => piecesFrom_ne_nil _ _ _ _ (List.map_eq_nil_iff.1 h)

/-! ### cuts -/

theorem afterStart_eq_none_iff {sep cs : List Char} : afterStart sep cs = none ↔ ¬ sep <+: cs := by
  constructor
  · rintro h ⟨rest, rfl⟩
    rw [afterStart_self] at h
    cases h
  · intro h
    cases hcut : afterStart sep cs with
    | none => rfl
    | some rest => exact absurd ⟨rest, (append_of_afterStart hcut).symm⟩ h

/-- there is no cut exactly where the separator does not occur -/
theorem lastCut_eq_none_iff {sep : List Char} (hsep : sep ≠ []) {cs : List Char} :
    lastCut sep cs = none ↔ ¬ sep <:+: cs := by
  induction cs with
  | nil => simp [lastCut, hsep]
  | cons c cs ih =>
    rw [lastCut_cons, List.infix_cons_iff, not_or, ← ih, ← afterStart_eq_none_iff]
    cases lastCut sep cs with
    | none => simp
    | some cut => simp

/-- the two sides of a cut and the separator make up the text -/
theorem append_of_splitLast {sep s before after : String}
    (h : splitLast sep s = some (before, after)) : s = before ++ sep ++ after := by
  obtain ⟨⟨b, a⟩, hcut, hsides⟩ := Option.map_eq_some_iff.1 h
  obtain ⟨rfl, rfl⟩ := Prod.mk.inj hsides
  apply String.toList_inj.1
  rw [append_of_lastCut hcut]
  simp

theorem splitLast_eq_none_iff {sep : String} (hsep : sep ≠ "") {s : String} :
    splitLast sep s = none ↔ ¬ sep.toList <:+: s.toList := by
  rw [← lastCut_eq_none_iff fun h => hsep (String.toList_eq_nil_iff.1 h)]
  exact Option.map_eq_none_iff

/-! ### items between commas -/

theorem piecesFrom_append_of_not_mem {c : Char} {cs : List Char} (h : c ∉ cs)
    (cur rest : List Char) :
    piecesFrom [c] 0 cur (cs ++ rest) = piecesFrom [c] 0 (cs.reverse ++ cur) rest := by
  induction cs generalizing cur with
  | nil => rfl
  | cons d cs ih =>
    obtain ⟨hd, hcs⟩ : c ≠ d ∧ c ∉ cs := by simpa using h
    have hno : afterStart [c] (d :: (cs ++ rest)) = none := by simp [afterStart, hd]
    rw [List.cons_append, piecesFrom_cons, hno, if_neg (by simp), ih hcs]
    simp

/-- parts that a separating character does not occur in are cut at that character -/
theorem pieces_singleton {c : Char} {parts : List (List Char)} (hne : parts ≠ [])
    (h : ∀ p ∈ parts, c ∉ p) : pieces [c] ([c].intercalate parts) = parts := by
  unfold pieces
  induction parts with
  | nil => exact absurd rfl hne
  | cons p parts ih =>
    have hp := h p List.mem_cons_self
    cases parts with
    | nil =>
      have hlast := piecesFrom_append_of_not_mem hp [] []
      rw [List.append_nil] at hlast
      rw [List.intercalate_singleton, hlast]
      simp [piecesFrom]
    | cons q parts =>
      have hrest := ih (List.cons_ne_nil q parts) fun r hr => h r (List.mem_cons_of_mem p hr)
      rw [List.intercalate_cons_cons, List.append_assoc, piecesFrom_append_of_not_mem hp]
      generalize [c].intercalate (q :: parts) = tail at hrest ⊢
      have hself : afterStart [c] (c :: tail) = some tail := afterStart_self [c] tail
      rw [List.singleton_append, piecesFrom_cons, hself, if_pos (by rfl),
        show [c].length - 1 = 0 from rfl, hrest]
      simp

/-- an item as it stands between commas: not empty, without commas and blanks -/
def isItem (s : String) : Bool := s != "" && s.toList.all fun c => !isBlank c && c != ','

/-- items between commas are read back -/
theorem commaItems_joinWith {items : List String} (h : ∀ s ∈ items, isItem s = true) :
    commaItems (joinWith "," items) = items := by
  have hchars : ∀ s ∈ items, s ≠ "" ∧ ∀ c ∈ s.toList, isBlank c = false ∧ c ≠ ',' := by
    intro s hs
    simpa [isItem] using h s hs
  by_cases hnil : items = []
  · subst hnil
    rfl
  · have hsplit : splitBy "," (joinWith "," items) = items := by
      unfold splitBy joinWith
      rw [String.toList_intercalate, show ",".toList = [','] from rfl,
        pieces_singleton (by simpa using hnil)]
      · simp
      · intro p hp
        obtain ⟨s, hs, rfl⟩ := List.mem_map.1 hp
        exact fun hc => ((hchars s hs).2 ',' hc).2 rfl
    have htrim : items.map trim = items :=
      (List.map_congr_left fun s hs => trim_eq_self fun c hc => ((hchars s hs).2 c hc).1).trans
        (List.map_id' items)
    unfold commaItems
    rw [hsplit, htrim, List.filter_eq_self]
    exact fun s hs => by simpa using (hchars s hs).1

end Text

open Text Outcome

/-! ### filter keys -/

theorem relationSeparator_ne_empty : relationSeparator ≠ "" := by decide

theorem operatorSeparator_ne_empty : operatorSeparator ≠ "" := by decide

/-- an operator is found by its own token only -/
theorem Operator.token_of_ofToken {token : String} {op : Operator} (h : ofToken token = .ok op) :
    op.token = token := by
  unfold ofToken ofToken? at h
  split at h
  · next found hfound =>
    obtain rfl := Except.ok.inj h
    simpa using List.find?_some hfound
  · cases h

/-- the path of a key and its tail make up the key -/
theorem joinWith_splitPath (key : String) :
    joinWith relationSeparator ((splitPath key).1 ++ [(splitPath key).2]) = key := by
  unfold splitPath
  split
  · next path tail hcut =>
    have hpath : splitBy relationSeparator path ≠ [] := splitBy_ne_nil _ _
    have hjoin := joinWith_splitBy relationSeparator_ne_empty path
    rw [append_of_splitLast hcut]
    unfold joinWith at hjoin ⊢
    rw [String.intercalate_append_of_ne_nil hpath (List.cons_ne_nil _ _), hjoin]
    simp
  · simp [joinWith]

/-- the tail of a key is a field without the separator of operators, or a field and the token of an
operator -/
theorem readTail_cases {tail field : String} {op : Operator} (h : readTail tail = .ok (field, op)) :
    tail = field ∧ op = .exact ∧ ¬ operatorSeparator.toList <:+: field.toList ∨
      tail = concat [field, operatorSeparator, op.token] := by
  unfold readTail at h
  split at h
  · next before token hcut =>
    obtain ⟨found, hfound, h⟩ := bind_eq_ok.1 h
    obtain ⟨rfl, rfl⟩ := Prod.mk.inj (Except.ok.inj h)
    right
    rw [append_of_splitLast hcut, Operator.token_of_ofToken hfound]
    simp [String.append_assoc]
  · next hcut =>
    obtain ⟨rfl, rfl⟩ := Prod.mk.inj (Except.ok.inj h)
    exact .inl ⟨rfl, rfl, (splitLast_eq_none_iff operatorSeparator_ne_empty).1 hcut⟩

theorem isWellFormed_iff {path : Path} {field : String} :
    isWellFormed path field = true ↔ field ≠ "" ∧ ∀ name ∈ path, name ≠ "" := by
  simp [isWellFormed]

/-- a key that is read has no empty part, and its parts make up the key -/
theorem eq_of_readFilterKey {key : String} {k : FilterKey} (h : readFilterKey key = .ok k) :
    (k.field ≠ "" ∧ ∀ name ∈ k.path, name ≠ "") ∧
      (key = k.path.fieldKey k.field ∧ k.operator = .exact ∧
          ¬ operatorSeparator.toList <:+: k.field.toList ∨
        key = k.path.filterKey k.field k.operator) := by
  rw [readFilterKey_eq] at h
  obtain ⟨⟨field, op⟩, htail, h⟩ := bind_eq_ok.1 h
  dsimp only at h
  split at h
  · next hparts =>
    obtain rfl := Except.ok.inj h
    refine ⟨isWellFormed_iff.1 hparts, ?_⟩
    have hkey := joinWith_splitPath key
    rcases readTail_cases htail with ⟨htail, hop, hfield⟩ | htail
    · rw [htail] at hkey
      exact .inl ⟨hkey.symm, hop, hfield⟩
    · rw [htail] at hkey
      right
      rw [Path.filterKey_eq]
      exact hkey.symm
  · cases h

/-! ### sort keys -/

/-- a sort key as a caller writes it -/
def SortKey.text (k : SortKey) : String := k.path.sortKey k.field k.descending

/-- a sort key that is made up of identifiers -/
def SortKey.isNamed (k : SortKey) : Bool := k.path.all isIdentifier && isIdentifier k.field

theorem SortKey.isNamed_iff {k : SortKey} :
    k.isNamed = true ↔
      (∀ name ∈ k.path, isIdentifier name = true) ∧ isIdentifier k.field = true := by
  simp [isNamed]

theorem ne_comma_of_isIdentifierChar {c : Char} (h : isIdentifierChar c = true) : c ≠ ',' := by
  rintro rfl
  revert h
  decide

theorem SortKey.isItem_text {k : SortKey} (h : k.isNamed = true) : isItem k.text = true := by
  obtain ⟨hpath, hfield⟩ := isNamed_iff.1 h
  have hne : k.text ≠ "" := by
    intro hempty
    have hread := readSortKey_sortKey hpath hfield k.descending
    rw [show k.path.sortKey k.field k.descending = k.text from rfl, hempty] at hread
    cases hread
  have hchars : ∀ c ∈ k.text.toList, isBlank c = false ∧ c ≠ ',' := by
    intro c hc
    unfold text Path.sortKey at hc
    rw [toList_concat] at hc
    simp only [List.flatMap_cons, List.flatMap_nil, List.append_nil, List.mem_append] at hc
    rcases hc with hmark | hkey
    · obtain rfl : c = '-' := by
        split at hmark
        · simpa using hmark
        · cases hmark
      decide
    · have hid := isIdentifierChar_of_mem_fieldKey hpath hfield hkey
      exact ⟨isBlank_of_isIdentifierChar hid, ne_comma_of_isIdentifierChar hid⟩
  simpa [isItem] using ⟨hne, hchars⟩

/-- sort keys between commas are read back in their order -/
theorem readSortList_joinWith {keys : List SortKey} (h : ∀ k ∈ keys, k.isNamed = true) :
    readSortList (joinWith "," (keys.map SortKey.text)) = .ok keys := by
  have hitems : ∀ s ∈ keys.map SortKey.text, isItem s = true := by
    intro s hs
    obtain ⟨k, hk, rfl⟩ := List.mem_map.1 hs
    exact SortKey.isItem_text (h k hk)
  unfold readSortList
  rw [commaItems_joinWith hitems, mapM_eq_ok, List.forall₂_map_left_iff, List.forall₂_same]
  intro k hk
  obtain ⟨hpath, hfield⟩ := SortKey.isNamed_iff.1 (h k hk)
  exact readSortKey_sortKey hpath hfield k.descending

/-! ### keys and their parts -/

/-- nothing is lost when a key is read: a text that is read as a path, a field and an operator is
made up of these, with no operator only if that is `exact` and the field has no separator in it, and
no part is empty; and names are read back, from a filter key with an operator or without, and from
any list of sort keys -/
theorem filter_keys_rendered :
    (∀ key k, readFilterKey key = .ok k →
      (k.field ≠ "" ∧ ∀ name ∈ k.path, name ≠ "") ∧
        (key = k.path.fieldKey k.field ∧ k.operator = .exact ∧
            ¬ operatorSeparator.toList <:+: k.field.toList ∨
          key = k.path.filterKey k.field k.operator)) ∧
    (∀ (path : Path) (field : String), (∀ name ∈ path, isIdentifier name = true) →
      isIdentifier field = true →
        (∀ op, readFilterKey (path.filterKey field op) = .ok ⟨path, field, op⟩) ∧
          readFilterKey (path.fieldKey field) = .ok ⟨path, field, .exact⟩) ∧
    ∀ keys : List SortKey, (∀ k ∈ keys, k.isNamed = true) →
      readSortList (joinWith "," (keys.map SortKey.text)) = .ok keys :=
  ⟨fun _ _ h => eq_of_readFilterKey h,
    fun _ _ hpath hfield => ⟨readFilterKey_filterKey hpath hfield,
      readFilterKey_fieldKey hpath hfield⟩,
    fun _ h => readSortList_joinWith h⟩

/-- runs of underscores, a field that looks like an operator, and a list of sort keys -/
theorem underscored_keys_rendered :
    readFilterKey "a____b__notin_or_isnull" = .ok ⟨["a_"], "b", .notInOrIsNull⟩ ∧
      "a____b__notin_or_isnull" = Path.filterKey ["a_"] "b" .notInOrIsNull ∧
      readFilterKey "members___user___ilike__asdate_ge" =
        .ok ⟨["members", "user"], "ilike", .asDateGe⟩ ∧
      readSortList "-members___name,id" = .ok [⟨["members"], "name", true⟩, ⟨[], "id", false⟩] := by
  obtain ⟨hparts, hnames, hsorts⟩ := filter_keys_rendered
  have hread : readFilterKey "a____b__notin_or_isnull" = .ok ⟨["a_"], "b", .notInOrIsNull⟩ := by rfl
  refine ⟨hread, ?_, ?_, ?_⟩
  · rcases (hparts _ _ hread).2 with ⟨_, hexact, _⟩ | hkey
    · cases hexact
    · exact hkey
  · exact (hnames ["members", "user"] "ilike" (by decide +kernel) (by decide +kernel)).1 .asDateGe
  · exact hsorts [⟨["members"], "name", true⟩, ⟨[], "id", false⟩] (by decide +kernel)

end EntityAccess
