import EntityAccess.Dict
import Mathlib.Data.List.Nodup

/-!
# what dictionaries hold

* `get?_eq_some_iff` : a key has the value that stands beside it;
* `contains_iff`, `contains_insert` : which keys are there;
* `ext_mem`, `ext_get?` : equal entries, or equal values, are equal contents;
* `get?_filter` : the entries that are left;
* `entries_ofList` : entries that are in order already stay as they are;
* `entries_foldl_insertNew` : so do those that are put in unless they are there;
* `get?_ofList` : entries with different keys are found;
* `perm_foldl_insert` : new entries are there beside all others;
* `foldl_insertNew_of_contains` : entries whose keys are there are not put in;
* `mem_ofList`, `mem_foldl_insertNew` : what is put in is there, if equal keys have equal entries.
-/

namespace EntityAccess

variable {α : Type}

theorem findEntry_eq_some_iff {l : List (String × α)} (h : SortedKeys l) {k : String} {v : α} :
    findEntry k l = some v ↔ (k, v) ∈ l := by
  induction l with
  | nil => simp [findEntry]
  | cons entry l ih =>
    obtain ⟨k', v'⟩ := entry
    obtain ⟨hhd, htl⟩ := List.pairwise_cons.1 h
    unfold findEntry
    split
    · next heq =>
      subst heq
      have hno : (k', v) ∉ l := fun hin => String.lt_irrefl k' (hhd _ hin)
      simp [hno, eq_comm]
    · next hne =>
      rw [ih htl]
      simp [Ne.symm hne]

/-- an entry that comes last is put in at the end -/
theorem insertEntry_last {l : List (String × α)} {k : String} (v : α) (h : ∀ e ∈ l, e.1 < k) :
    insertEntry k v l = l ++ [(k, v)] := by
  induction l with
  | nil => rfl
  | cons entry l ih =>
    obtain ⟨k', v'⟩ := entry
    have hlt : k' < k := h _ List.mem_cons_self
    have hne : k ≠ k' := fun heq => String.lt_irrefl k (heq ▸ hlt)
    unfold insertEntry
    rw [if_neg (String.lt_asymm hlt), if_neg hne, ih fun e he => h e (List.mem_cons_of_mem _ he)]
    rfl

namespace Dict

theorem get?_eq_some_iff {d : Dict α} {k : String} {v : α} :
    d.get? k = some v ↔ (k, v) ∈ d.entries :=
  findEntry_eq_some_iff d.sorted

theorem get?_eq_none_iff {d : Dict α} {k : String} : d.get? k = none ↔ k ∉ d.keys := by
  rw [Option.eq_none_iff_forall_ne_some]
  unfold keys
  rw [List.mem_map]
  constructor
  · rintro h ⟨⟨k', v⟩, hmem, rfl⟩
    exact h v (get?_eq_some_iff.2 hmem)
  · intro h v hv
    exact h ⟨(k, v), get?_eq_some_iff.1 hv, rfl⟩

theorem contains_iff {d : Dict α} {k : String} : d.contains k = true ↔ k ∈ d.keys := by
  unfold contains
  rw [Option.isSome_iff_ne_none, ne_eq, get?_eq_none_iff, not_not]

theorem contains_insert {d : Dict α} {k k' : String} {v : α} :
    (d.insert k v).contains k' = true ↔ k' = k ∨ d.contains k' = true := by
  unfold contains
  by_cases h : k = k'
  · subst h
    simp [get?_insert_self]
  · rw [get?_insert_ne d v h]
    simp [Ne.symm h]

/-- what is put in is there -/
theorem contains_foldl_insert {β : Type} {f : β → α} {l : List (String × β)} {d : Dict α}
    {k : String} : (l.foldl (fun d e => d.insert e.1 (f e.2)) d).contains k = true ↔
      k ∈ l.map (·.1) ∨ d.contains k = true := by
  induction l generalizing d with
  | nil => simp
  | cons e l ih =>
    rw [List.foldl_cons, ih, contains_insert, List.map_cons, List.mem_cons, or_left_comm, or_assoc]

theorem nodup_keys (d : Dict α) : d.keys.Nodup := by
  refine List.pairwise_map.2 (d.sorted.imp fun {a b} hlt heq => ?_)
  rw [heq] at hlt
  exact String.lt_irrefl b.1 hlt

theorem nodup_entries (d : Dict α) : d.entries.Nodup := .of_map _ d.nodup_keys

/-- equal entries are equal contents -/
theorem ext_mem {d e : Dict α} (h : ∀ entry, entry ∈ d.entries ↔ entry ∈ e.entries) : d = e := by
  have hperm : d.entries.Perm e.entries :=
    (List.perm_ext_iff_of_nodup d.nodup_entries e.nodup_entries).2 h
  refine ext (hperm.eq_of_pairwise (fun a b _ _ hab hba => ?_) d.sorted e.sorted)
  exact absurd hab (String.lt_asymm hba)

/-- equal values of all keys are equal contents -/
theorem ext_get? {d e : Dict α} (h : ∀ k, d.get? k = e.get? k) : d = e :=
  ext_mem fun ⟨k, v⟩ => by rw [← get?_eq_some_iff, h, get?_eq_some_iff]

theorem get?_filter (d : Dict α) (p : String → α → Bool) (k : String) :
    (d.filter p).get? k = (d.get? k).filter (p k) := by
  refine Option.ext fun v => ?_
  have hentry : (k, v) ∈ (d.filter p).entries ↔ (k, v) ∈ d.entries ∧ p k v = true :=
    List.mem_filter
  rw [get?_eq_some_iff, hentry, Option.filter_eq_some_iff, get?_eq_some_iff]

theorem entries_foldl_insert {l : List (String × α)} {d : Dict α}
    (h : SortedKeys (d.entries ++ l)) :
    (l.foldl (fun d e => d.insert e.1 e.2) d).entries = d.entries ++ l := by
  induction l generalizing d with
  | nil => simp
  | cons e l ih =>
    have hlast : ∀ e' ∈ d.entries, e'.1 < e.1 := fun e' he' =>
      (List.pairwise_append.1 h).2.2 e' he' e List.mem_cons_self
    have hins : (d.insert e.1 e.2).entries = d.entries ++ [e] := insertEntry_last e.2 hlast
    rw [List.foldl_cons, ih (by rw [hins, List.append_assoc]; exact h), hins, List.append_assoc]
    rfl

/-- entries in order stay as they are -/
theorem entries_ofList {l : List (String × α)} (h : SortedKeys l) : (ofList l).entries = l :=
  entries_foldl_insert h

theorem entries_foldl_insertNew {l : List (String × α)} {d : Dict α}
    (h : SortedKeys (d.entries ++ l)) :
    (l.foldl (fun d e => d.insertNew e.1 e.2) d).entries = d.entries ++ l := by
  rw [← entries_foldl_insert h]
  congr 1
  induction l generalizing d with
  | nil => rfl
  | cons e l ih =>
    have hlast : ∀ e' ∈ d.entries, e'.1 < e.1 := fun e' he' =>
      (List.pairwise_append.1 h).2.2 e' he' e List.mem_cons_self
    have hno : d.get? e.1 = none := by
      rw [get?_eq_none_iff]
      intro hin
      obtain ⟨e', he', heq⟩ := List.mem_map.1 hin
      exact String.lt_irrefl e.1 (heq ▸ hlast e' he')
    have hnew : d.insertNew e.1 e.2 = d.insert e.1 e.2 := by
      unfold insertNew contains
      rw [hno]
      rfl
    have hins : (d.insert e.1 e.2).entries = d.entries ++ [e] := insertEntry_last e.2 hlast
    rw [List.foldl_cons, List.foldl_cons, hnew, ih (by rw [hins, List.append_assoc]; exact h)]

theorem get?_foldl_insert_of_not_mem {l : List (String × α)} {d : Dict α} {k : String}
    (h : k ∉ l.map (·.1)) : (l.foldl (fun d e => d.insert e.1 e.2) d).get? k = d.get? k := by
  induction l generalizing d with
  | nil => rfl
  | cons e l ih =>
    rw [List.map_cons, List.mem_cons, not_or] at h
    rw [List.foldl_cons, ih h.2, get?_insert_ne _ _ (Ne.symm h.1)]

/-- entries with different keys are found -/
theorem get?_ofList {l : List (String × α)} (hnd : (l.map (·.1)).Nodup) {k : String} {v : α}
    (h : (k, v) ∈ l) : (ofList l).get? k = some v := by
  have hfold : ∀ d : Dict α, (l.foldl (fun d e => d.insert e.1 e.2) d).get? k = some v := by
    induction l with
    | nil => simp at h
    | cons e l ih =>
      intro d
      rw [List.map_cons, List.nodup_cons] at hnd
      rw [List.foldl_cons]
      rcases List.mem_cons.1 h with rfl | h
      · rw [get?_foldl_insert_of_not_mem hnd.1, get?_insert_self]
      · exact ih hnd.2 h _
  exact hfold empty

/-! ### entries that agree -/

theorem mem_insert {d : Dict α} {k : String} {v : α} {entry : String × α} :
    entry ∈ (d.insert k v).entries ↔ entry = (k, v) ∨ entry.1 ≠ k ∧ entry ∈ d.entries := by
  obtain ⟨k', v'⟩ := entry
  rw [← get?_eq_some_iff]
  by_cases h : k = k'
  · subst h
    simp [get?_insert_self, eq_comm]
  · rw [get?_insert_ne d v h, get?_eq_some_iff]
    simp [Ne.symm h]

/-- a new entry leaves all others -/
theorem perm_insert {d : Dict α} {k : String} (h : k ∉ d.keys) (v : α) :
    (d.insert k v).entries.Perm (d.entries ++ [(k, v)]) := by
  have hother : ∀ entry ∈ d.entries, entry.1 ≠ k := fun entry hentry heq =>
    h (heq ▸ List.mem_map_of_mem hentry)
  have hnd : (d.entries ++ [(k, v)]).Nodup := by
    refine List.nodup_append'.2 ⟨d.nodup_entries, List.nodup_singleton _, ?_⟩
    rw [List.disjoint_singleton]
    exact fun hmem => hother _ hmem rfl
  refine (List.perm_ext_iff_of_nodup (d.insert k v).nodup_entries hnd).2 fun entry => ?_
  rw [mem_insert, List.mem_append, List.mem_singleton, or_comm]
  exact or_congr_left ⟨And.right, fun hentry => ⟨hother entry hentry, hentry⟩⟩

/-- new entries are there beside those that have been there, none over another -/
theorem perm_foldl_insert {β : Type} {f : β → α} {l : List (String × β)} {d : Dict α}
    (hnd : (l.map (·.1)).Nodup) (hnew : ∀ k ∈ l.map (·.1), k ∉ d.keys) :
    (l.foldl (fun d e => d.insert e.1 (f e.2)) d).entries.Perm
      (d.entries ++ l.map fun e => (e.1, f e.2)) := by
  induction l generalizing d with
  | nil => simp
  | cons e l ih =>
    rw [List.map_cons, List.nodup_cons] at hnd
    rw [List.map_cons, List.forall_mem_cons] at hnew
    have hins := perm_insert hnew.1 (f e.2)
    refine (ih hnd.2 fun k hk hin => ?_).trans ?_
    · obtain ⟨entry, hentry, rfl⟩ := List.mem_map.1 hin
      rcases List.mem_append.1 (hins.mem_iff.1 hentry) with hold | hfirst
      · exact hnew.2 _ hk (List.mem_map_of_mem hold)
      · rw [List.mem_singleton.1 hfirst] at hk
        exact hnd.1 hk
    · rw [List.map_cons, ← List.singleton_append, ← List.append_assoc]
      exact hins.append_right _

/-- entries are those that were put in -/
theorem of_mem_ofList {l : List (String × α)} {entry : String × α}
    (h : entry ∈ (ofList l).entries) : entry ∈ l := by
  have hfold : ∀ d : Dict α, entry ∈ (l.foldl (fun d e => d.insert e.1 e.2) d).entries →
      entry ∈ d.entries ∨ entry ∈ l := by
    clear h
    induction l with
    | nil => exact fun d h => .inl h
    | cons e l ih =>
      intro d h
      rcases ih _ h with h | h
      · rcases mem_insert.1 h with rfl | ⟨_, h⟩
        · exact .inr List.mem_cons_self
        · exact .inl h
      · exact .inr (List.mem_cons_of_mem _ h)
  rcases hfold empty h with h | h
  · simp [empty] at h
  · exact h

theorem mem_insertNew {d : Dict α} {k : String} {v : α} {entry : String × α} :
    entry ∈ (d.insertNew k v).entries ↔
      entry ∈ d.entries ∨ k ∉ d.keys ∧ entry = (k, v) := by
  unfold insertNew contains
  cases h : d.get? k with
  | some w =>
    have hkey : k ∈ d.keys := List.mem_map.2 ⟨(k, w), get?_eq_some_iff.1 h, rfl⟩
    simp [hkey]
  | none =>
    have hkey : k ∉ d.keys := get?_eq_none_iff.1 h
    have hother : ∀ entry ∈ d.entries, entry.1 ≠ k := fun entry hentry heq =>
      hkey (heq ▸ List.mem_map_of_mem hentry)
    simp only [Option.isSome_none, Bool.false_eq_true, if_false, mem_insert]
    constructor
    · rintro (rfl | ⟨_, hentry⟩)
      · exact .inr ⟨hkey, rfl⟩
      · exact .inl hentry
    · rintro (hentry | ⟨_, rfl⟩)
      · exact .inr ⟨hother entry hentry, hentry⟩
      · exact .inl rfl

/-- what is put in where there is nothing yet comes from either side -/
theorem of_mem_foldl_insertNew {l : List (String × α)} {d : Dict α} {entry : String × α}
    (h : entry ∈ (l.foldl (fun d e => d.insertNew e.1 e.2) d).entries) :
    entry ∈ d.entries ∨ entry ∈ l := by
  induction l generalizing d with
  | nil => exact .inl h
  | cons first l ih =>
    rcases ih h with h | h
    · rcases mem_insertNew.1 h with h | ⟨_, rfl⟩
      · exact .inl h
      · exact .inr List.mem_cons_self
    · exact .inr (List.mem_cons_of_mem _ h)

theorem insertNew_of_contains {d : Dict α} {k : String} (h : d.contains k = true) (v : α) :
    d.insertNew k v = d :=
  if_pos h

theorem contains_insertNew {d : Dict α} {k k' : String} {v : α} :
    (d.insertNew k v).contains k' = true ↔ k' = k ∨ d.contains k' = true := by
  by_cases h : d.contains k = true
  · rw [insertNew_of_contains h]
    constructor
    · exact .inr
    · rintro (rfl | h')
      · exact h
      · exact h'
  · unfold insertNew
    rw [if_neg h, contains_insert]

theorem contains_foldl_insertNew {l : List (String × α)} {d : Dict α} {k : String} :
    (l.foldl (fun d e => d.insertNew e.1 e.2) d).contains k = true ↔
      k ∈ l.map (·.1) ∨ d.contains k = true := by
  induction l generalizing d with
  | nil => simp
  | cons e l ih =>
    rw [List.foldl_cons, ih, contains_insertNew, List.map_cons, List.mem_cons, or_left_comm,
      or_assoc]

/-- entries whose keys are there change nothing -/
theorem foldl_insertNew_of_contains {l : List (String × α)} {d : Dict α}
    (h : ∀ e ∈ l, d.contains e.1 = true) : l.foldl (fun d e => d.insertNew e.1 e.2) d = d := by
  induction l with
  | nil => rfl
  | cons e l ih =>
    obtain ⟨he, hl⟩ := List.forall_mem_cons.1 h
    rw [List.foldl_cons, insertNew_of_contains he, ih hl]

/-- equal keys have equal entries -/
def Agree (l : List (String × α)) : Prop := ∀ a ∈ l, ∀ b ∈ l, a.1 = b.1 → a = b

theorem Agree.mono {l l' : List (String × α)} (h : Agree l) (hl : ∀ a ∈ l', a ∈ l) : Agree l' :=
  fun a ha b hb => h a (hl a ha) b (hl b hb)

/-- entries in order have different keys -/
theorem agree_of_sorted {l : List (String × α)} (h : SortedKeys l) : Agree l := by
  rintro ⟨k, v⟩ ha ⟨k', w⟩ hb (rfl : k = k')
  have hv := (findEntry_eq_some_iff h).2 ha
  rw [(findEntry_eq_some_iff h).2 hb] at hv
  rw [Option.some.inj hv]

/-- one step of putting in: whatever is there already agrees with what comes -/
theorem mem_foldl_of_step {f : Dict α → String × α → Dict α}
    (hf : ∀ d entry, Agree (d.entries ++ [entry]) →
      ∀ a, a ∈ (f d entry).entries ↔ a ∈ d.entries ∨ a = entry)
    {l : List (String × α)} {d : Dict α} (h : Agree (d.entries ++ l)) (a : String × α) :
    a ∈ (l.foldl f d).entries ↔ a ∈ d.entries ∨ a ∈ l := by
  induction l generalizing d with
  | nil => simp
  | cons entry l ih =>
    have hstep := hf d entry (h.mono fun a ha => by
      rw [List.mem_append, List.mem_singleton] at ha
      rcases ha with ha | rfl <;> simp [*])
    have hrest : Agree ((f d entry).entries ++ l) := h.mono fun a ha => by
      rw [List.mem_append, hstep] at ha
      rcases ha with (ha | rfl) | ha <;> simp [*]
    rw [List.foldl_cons, ih hrest, hstep, List.mem_cons, or_assoc]

theorem mem_foldl_insertNew {l : List (String × α)} {d : Dict α} (h : Agree (d.entries ++ l))
    (a : String × α) :
    a ∈ (l.foldl (fun d e => d.insertNew e.1 e.2) d).entries ↔ a ∈ d.entries ∨ a ∈ l := by
  refine mem_foldl_of_step (fun d entry hagree a => ?_) h a
  rw [mem_insertNew]
  constructor
  · exact fun ha => ha.imp_right And.right
  · rintro (ha | rfl)
    · exact .inl ha
    · by_cases hkey : a.1 ∈ d.keys
      · obtain ⟨b, hb, hab⟩ := List.mem_map.1 hkey
        have hsame : b = a := hagree b (by simp [hb]) a (by simp) hab
        exact .inl (hsame ▸ hb)
      · exact .inr ⟨hkey, rfl⟩

theorem mem_ofList {l : List (String × α)} (h : Agree l) (a : String × α) :
    a ∈ (ofList l).entries ↔ a ∈ l := by
  have hfold := mem_foldl_of_step (f := fun d e => d.insert e.1 e.2) (d := empty)
    (fun d entry hagree a => ?_) (l := l) (by simpa [empty] using h) a
  · rw [show (ofList l).entries = (l.foldl (fun d e => d.insert e.1 e.2) empty).entries from rfl,
      hfold]
    simp [empty]
  · rw [mem_insert]
    constructor
    · rintro (rfl | ⟨_, ha⟩)
      · exact .inr rfl
      · exact .inl ha
    · rintro (ha | rfl)
      · by_cases hkey : a.1 = entry.1
        · exact .inl (hagree a (by simp [ha]) entry (by simp) hkey)
        · exact .inr ⟨hkey, ha⟩
      · exact .inl rfl

end Dict
end EntityAccess
