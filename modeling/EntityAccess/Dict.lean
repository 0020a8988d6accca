/-!
# dictionaries in key order

A dictionary keeps its entries sorted by key, each key once, so that equal contents are equal
dictionaries and every listing is in key order (by code point, which is also the byte order of
UTF-8).

* `get?_insert_self`, `get?_insert_ne` : what an insertion changes;
* `mem_insertEntry`, `sorted_insertEntry` : the order is kept.
-/

namespace EntityAccess

/-- the entries with one put in its place, over any entry of that key -/
def insertEntry {α : Type} (k : String) (v : α) : List (String × α) → List (String × α)
  | [] => [(k, v)]
  | (k', v') :: rest =>
    if k < k' then (k, v) :: (k', v') :: rest
    else if k = k' then (k, v) :: rest
    else (k', v') :: insertEntry k v rest

/-- the value of a key among entries -/
def findEntry {α : Type} (k : String) : List (String × α) → Option α
  | [] => none
  | (k', v) :: rest => if k' = k then some v else findEntry k rest

/-- strictly ascending keys -/
def SortedKeys {α : Type} (entries : List (String × α)) : Prop :=
  entries.Pairwise fun a b => a.1 < b.1

theorem mem_insertEntry {α : Type} {k : String} {v : α} {e : String × α}
    {l : List (String × α)} (h : e ∈ insertEntry k v l) : e = (k, v) ∨ e ∈ l := by
  induction l with
  | nil => simpa [insertEntry] using h
  | cons hd tl ih =>
    obtain ⟨k', v'⟩ := hd
    simp only [insertEntry] at h
    split at h
    · simpa using h
    · split at h
      · rcases List.mem_cons.1 h with h | h
        · exact .inl h
        · exact .inr (List.mem_cons_of_mem _ h)
      · rcases List.mem_cons.1 h with h | h
        · exact .inr (by simp [h])
        · exact (ih h).imp_right (List.mem_cons_of_mem _)

theorem lt_of_not_lt_of_ne {a b : String} (h : ¬ a < b) (hne : a ≠ b) : b < a := by
  rcases String.le_total a b with hab | hab
  · exact absurd (String.le_antisymm hab (String.not_lt.1 h)) hne
  · exact Decidable.byContradiction fun hba =>
      hne (String.le_antisymm (String.not_lt.1 hba) hab)

theorem sorted_insertEntry {α : Type} (k : String) (v : α) {l : List (String × α)}
    (h : SortedKeys l) : SortedKeys (insertEntry k v l) := by
  induction l with
  | nil => simp [insertEntry, SortedKeys]
  | cons hd tl ih =>
    obtain ⟨k', v'⟩ := hd
    obtain ⟨hhd, htl⟩ := List.pairwise_cons.1 h
    simp only [insertEntry]
    split
    · next hlt =>
      refine List.pairwise_cons.2 ⟨fun e he => ?_, h⟩
      rcases List.mem_cons.1 he with rfl | he
      · exact hlt
      · exact String.lt_trans hlt (hhd e he)
    · next hlt =>
      split
      · next heq =>
        subst heq
        exact List.pairwise_cons.2 ⟨hhd, htl⟩
      · next hne =>
        refine List.pairwise_cons.2 ⟨fun e he => ?_, ih htl⟩
        rcases mem_insertEntry he with rfl | he
        · exact lt_of_not_lt_of_ne hlt hne
        · exact hhd e he

theorem findEntry_insertEntry_self {α : Type} (k : String) (v : α) (l : List (String × α)) :
    findEntry k (insertEntry k v l) = some v := by
  induction l with
  | nil => simp [insertEntry, findEntry]
  | cons hd tl ih =>
    obtain ⟨k', v'⟩ := hd
    simp only [insertEntry]
    split
    · simp [findEntry]
    · split
      · simp [findEntry]
      · next hne => simp [findEntry, Ne.symm hne, ih]

theorem findEntry_insertEntry_ne {α : Type} {k k' : String} (v : α) (h : k ≠ k')
    (l : List (String × α)) : findEntry k' (insertEntry k v l) = findEntry k' l := by
  induction l with
  | nil => simp [insertEntry, findEntry, h]
  | cons hd tl ih =>
    obtain ⟨k'', v''⟩ := hd
    simp only [insertEntry]
    split
    · simp [findEntry, h]
    · split
      · next heq => subst heq; simp [findEntry, h]
      · by_cases hk : k'' = k' <;> simp [findEntry, hk, ih]

/-- a dictionary with text keys -/
structure Dict (α : Type) where
  entries : List (String × α)
  sorted : SortedKeys entries

namespace Dict

variable {α β : Type}

theorem ext {d e : Dict α} (h : d.entries = e.entries) : d = e := by
  cases d; cases e; cases h; rfl

instance [DecidableEq α] : DecidableEq (Dict α) := fun d e =>
  if h : d.entries = e.entries then .isTrue (ext h) else .isFalse fun he => h (he ▸ rfl)

def empty : Dict α := ⟨[], .nil⟩

instance : Inhabited (Dict α) := ⟨empty⟩

def isEmpty (d : Dict α) : Bool := d.entries.isEmpty

def size (d : Dict α) : Nat := d.entries.length

def keys (d : Dict α) : List String := d.entries.map (·.1)

def values (d : Dict α) : List α := d.entries.map (·.2)

def get? (d : Dict α) (k : String) : Option α := findEntry k d.entries

def contains (d : Dict α) (k : String) : Bool := (d.get? k).isSome

/-- the dictionary with `v` at `k` -/
def insert (d : Dict α) (k : String) (v : α) : Dict α :=
  ⟨insertEntry k v d.entries, sorted_insertEntry k v d.sorted⟩

/-- the dictionary with `v` at `k`, unless there is a value already -/
def insertNew (d : Dict α) (k : String) (v : α) : Dict α :=
  if d.contains k then d else d.insert k v

/-- the entries that pass a test -/
def filter (p : String → α → Bool) (d : Dict α) : Dict α :=
  ⟨d.entries.filter fun e => p e.1 e.2, d.sorted.filter _⟩

def erase (d : Dict α) (k : String) : Dict α := d.filter fun k' _ => k' ≠ k

/-- every value changed, the keys kept -/
def map (f : α → β) (d : Dict α) : Dict β :=
  ⟨d.entries.map fun e => (e.1, f e.2), by
    have h := d.sorted
    simp only [SortedKeys, List.pairwise_map] at h ⊢
    exact h⟩

/-- entries put in one after the other: the last of a key wins -/
def ofList (entries : List (String × α)) : Dict α :=
  entries.foldl (fun d e => d.insert e.1 e.2) empty

theorem get?_empty (k : String) : (empty : Dict α).get? k = none := rfl

theorem get?_insert_self (d : Dict α) (k : String) (v : α) : (d.insert k v).get? k = some v :=
  findEntry_insertEntry_self k v d.entries

theorem get?_insert_ne (d : Dict α) {k k' : String} (v : α) (h : k ≠ k') :
    (d.insert k v).get? k' = d.get? k' :=
  findEntry_insertEntry_ne v h d.entries

end Dict
end EntityAccess
