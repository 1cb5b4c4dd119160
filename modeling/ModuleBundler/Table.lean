/-!
# Tables

A table assigns values to texts.  It keeps its entries in increasing order of
the keys, byte by byte, each key once, so a table is known by what it assigns.

Main results:

- Theorem {lit}`Table.get?_put_self`: what was put is found.
- Theorem {lit}`Table.get?_put_of_ne`: nothing else changes.
- Theorem {lit}`Table.getD_tally`: a tally counts the occurrences of every text.
-/

namespace ModuleBundler

variable {α β : Type}

/-- A finite map from texts, kept in increasing order of the keys. -/
structure Table (α : Type) where
  entries : List (String × α)
  sorted : entries.Pairwise fun a b => a.1 < b.1

deriving instance DecidableEq for Table
deriving instance Repr for Table

namespace Table

instance : Inhabited (Table α) :=
  ⟨⟨[], .nil⟩⟩

/-- The table without entries. -/
def empty : Table α :=
  ⟨[], .nil⟩

instance : EmptyCollection (Table α) :=
  ⟨empty⟩

/-- Put an entry in its place among sorted ones, where an older one with its key is replaced. -/
def putEntry (key : String) (value : α) : List (String × α) → List (String × α)
  | [] => [(key, value)]
  | (k, v) :: rest =>
    if key = k then (key, value) :: rest
    else if key < k then (key, value) :: (k, v) :: rest
    else (k, v) :: putEntry key value rest

theorem key_of_mem_putEntry {key : String} {value : α} {entries : List (String × α)}
    {entry : String × α} (h : entry ∈ putEntry key value entries) :
    entry.1 = key ∨ entry ∈ entries := by
  induction entries with
  | nil =>
    simp only [putEntry, List.mem_singleton] at h
    exact .inl (h ▸ rfl)
  | cons head rest ih =>
    obtain ⟨k, v⟩ := head
    unfold putEntry at h
    split at h
    · rcases List.mem_cons.1 h with rfl | hmem
      · exact .inl rfl
      · exact .inr (List.mem_cons_of_mem _ hmem)
    · split at h
      · rcases List.mem_cons.1 h with rfl | hmem
        · exact .inl rfl
        · exact .inr hmem
      · rcases List.mem_cons.1 h with rfl | hmem
        · exact .inr List.mem_cons_self
        · exact (ih hmem).imp_right (List.mem_cons_of_mem _)

theorem pairwise_putEntry {entries : List (String × α)}
    (h : entries.Pairwise fun a b => a.1 < b.1) (key : String) (value : α) :
    (putEntry key value entries).Pairwise fun a b => a.1 < b.1 := by
  induction entries with
  | nil => simp [putEntry]
  | cons head rest ih =>
    obtain ⟨k, v⟩ := head
    obtain ⟨hhead, hrest⟩ := List.pairwise_cons.1 h
    unfold putEntry
    split
    · rename_i heq
      subst heq
      exact List.pairwise_cons.2 ⟨hhead, hrest⟩
    · rename_i hne
      split
      · rename_i hlt
        refine List.pairwise_cons.2 ⟨fun entry hmem => ?_, h⟩
        rcases List.mem_cons.1 hmem with rfl | hmem
        · exact hlt
        · exact String.lt_trans hlt (hhead entry hmem)
      · rename_i hnlt
        refine List.pairwise_cons.2 ⟨fun entry hmem => ?_, ih hrest⟩
        rcases key_of_mem_putEntry hmem with heq | hmem
        · rw [heq]
          exact Std.lt_of_le_of_ne (String.not_lt.1 hnlt) (Ne.symm hne)
        · exact hhead entry hmem

/-- Put a value under a key, in place of an older one. -/
def put (table : Table α) (key : String) (value : α) : Table α :=
  ⟨putEntry key value table.entries, pairwise_putEntry table.sorted key value⟩

/-- The value under a key. -/
def get? (table : Table α) (key : String) : Option α :=
  table.entries.lookup key

/-- Whether a key has a value. -/
def has (table : Table α) (key : String) : Bool :=
  (table.get? key).isSome

/-- The table without a key. -/
def erase (table : Table α) (key : String) : Table α :=
  ⟨table.entries.filter fun entry => entry.1 != key, table.sorted.filter _⟩

/-- The table with every value replaced. -/
def map (f : α → β) (table : Table α) : Table β :=
  ⟨table.entries.map fun entry => (entry.1, f entry.2), by
    refine List.pairwise_map.2 ?_
    exact table.sorted⟩

/-- The table with the values that have a replacement. -/
def filterMap (f : α → Option β) (table : Table α) : Table β :=
  ⟨table.entries.filterMap fun entry => (f entry.2).map fun value => (entry.1, value), by
    refine List.Pairwise.filterMap _ ?_ table.sorted
    intro a b hlt c hc d hd
    obtain ⟨x, _, rfl⟩ := Option.map_eq_some_iff.1 hc
    obtain ⟨y, _, rfl⟩ := Option.map_eq_some_iff.1 hd
    exact hlt⟩

/-- The table of a list of entries; later entries replace earlier ones. -/
def ofList (entries : List (String × α)) : Table α :=
  entries.foldl (fun table entry => table.put entry.1 entry.2) empty

/-- The table with one entry. -/
def single (key : String) (value : α) : Table α :=
  ⟨[(key, value)], List.pairwise_singleton _ _⟩

/-- The keys in increasing order. -/
def keys (table : Table α) : List String :=
  table.entries.map (·.1)

@[simp]
theorem get?_empty (key : String) : (empty : Table α).get? key = none := rfl

theorem lookup_putEntry_self (key : String) (value : α) (entries : List (String × α)) :
    (putEntry key value entries).lookup key = some value := by
  induction entries with
  | nil => simp [putEntry]
  | cons head rest ih =>
    obtain ⟨k, v⟩ := head
    unfold putEntry
    split
    · simp
    · rename_i hne
      split
      · simp
      · have hbeq : (key == k) = false := by simpa using hne
        simpa [List.lookup_cons, hbeq] using ih

theorem lookup_putEntry_of_ne {key other : String} (hne : other ≠ key) (value : α)
    (entries : List (String × α)) :
    (putEntry key value entries).lookup other = entries.lookup other := by
  have hbeq : (other == key) = false := by simpa using hne
  induction entries with
  | nil => simp [putEntry, List.lookup_cons, hbeq]
  | cons head rest ih =>
    obtain ⟨k, v⟩ := head
    unfold putEntry
    split
    · rename_i heq
      subst heq
      simp [List.lookup_cons, hbeq]
    · split
      · simp [List.lookup_cons, hbeq]
      · by_cases hk : other = k
        · simp [hk]
        · have hk' : (other == k) = false := by simpa using hk
          simpa [List.lookup_cons, hk'] using ih

@[simp]
theorem get?_put_self (table : Table α) (key : String) (value : α) :
    (table.put key value).get? key = some value :=
  lookup_putEntry_self key value table.entries

theorem get?_put_of_ne {key other : String} (hne : other ≠ key) (table : Table α) (value : α) :
    (table.put key value).get? other = table.get? other :=
  lookup_putEntry_of_ne hne value table.entries

/-- A key behind all others comes to the end. -/
theorem putEntry_of_last {key : String} {entries : List (String × α)} (h : ∀ entry ∈ entries, entry.1 < key)
    (value : α) : putEntry key value entries = entries ++ [(key, value)] := by
  induction entries with
  | nil => rfl
  | cons head rest ih =>
    obtain ⟨k, v⟩ := head
    rw [List.forall_mem_cons] at h
    have hne : key ≠ k := fun heq => String.lt_irrefl k (heq ▸ h.1)
    have hnlt : ¬ key < k := String.lt_asymm h.1
    rw [putEntry, if_neg hne, if_neg hnlt, ih h.2, List.cons_append]

theorem entries_foldl_put (table : Table α) {more : List (String × α)}
    (h : (table.entries ++ more).Pairwise fun a b => a.1 < b.1) :
    (more.foldl (fun table entry => table.put entry.1 entry.2) table).entries = table.entries ++ more := by
  induction more generalizing table with
  | nil => simp
  | cons head rest ih =>
    have hlast : ∀ entry ∈ table.entries, entry.1 < head.1 := fun entry hmem =>
      (List.pairwise_append.1 h).2.2 entry hmem head List.mem_cons_self
    have hput : (table.put head.1 head.2).entries = table.entries ++ [head] :=
      putEntry_of_last hlast head.2
    have hsorted : ((table.put head.1 head.2).entries ++ rest).Pairwise fun a b => a.1 < b.1 := by
      rw [hput, List.append_assoc]
      exact h
    rw [List.foldl_cons, ih _ hsorted, hput, List.append_assoc]
    rfl

/-- A table is what its entries make up. -/
theorem ofList_entries (table : Table α) : ofList table.entries = table := by
  obtain ⟨entries, sorted⟩ := table
  have h : (entries.foldl (fun table entry => table.put entry.1 entry.2) empty).entries = entries :=
    entries_foldl_put empty sorted
  unfold ofList
  revert h
  generalize entries.foldl (fun table entry => table.put entry.1 entry.2) empty = result
  obtain ⟨other, hother⟩ := result
  rintro rfl
  rfl

/-! ## Counting -/

/-- Count one more of a text. -/
def countOne (counts : Table Nat) (key : String) : Table Nat :=
  counts.put key ((counts.get? key).getD 0 + 1)

/-- How often each text occurs. -/
def tally (keys : List String) : Table Nat :=
  keys.foldl countOne empty

theorem getD_foldl_countOne (keys : List String) (counts : Table Nat) (key : String) :
    ((keys.foldl countOne counts).get? key).getD 0 =
      (counts.get? key).getD 0 + keys.count key := by
  induction keys generalizing counts with
  | nil => rfl
  | cons head rest ih =>
    rw [List.foldl_cons, ih]
    by_cases h : head = key
    · subst h
      simp [countOne]
      omega
    · rw [List.count_cons_of_ne h, countOne, get?_put_of_ne (Ne.symm h)]

/-- A tally counts the occurrences of every text. -/
theorem getD_tally (keys : List String) (key : String) :
    ((tally keys).get? key).getD 0 = keys.count key := by
  simpa [tally] using getD_foldl_countOne keys empty key

end Table
end ModuleBundler
