import ModuleBundler.Path.Basic

/-!
# Maps from paths

A map from paths finds a value under every spelling of a path.  The spelling
that was put first stays the one that is shown; entries keep the order in which
their paths came.

Main results:

- Theorem {lit}`Path.Map.get?_put_self`: what was put is found, also under another spelling.
- Theorem {lit}`Path.Map.get?_put_of_ne`: nothing else changes.
- Theorem {lit}`Path.Map.get?_erase_self`: what was erased is not found.
-/

namespace ModuleBundler
namespace Path

variable {α β : Type}

/-- Entries are apart when their paths are not the same. -/
def Apart (a b : Path × α) : Prop :=
  (a.1 == b.1) = false

/-- A finite map from paths. -/
structure Map (α : Type) where
  entries : List (Path × α)
  apart : entries.Pairwise Apart

namespace Map

/-- The map without entries. -/
def empty : Map α :=
  ⟨[], .nil⟩

instance : Inhabited (Map α) :=
  ⟨empty⟩

instance : EmptyCollection (Map α) :=
  ⟨empty⟩

/-- The first value under the path. -/
def find (p : Path) : List (Path × α) → Option α
  | [] => none
  | (q, a) :: rest => if q == p then some a else find p rest

/-- The value under a path. -/
def get? (map : Map α) (p : Path) : Option α :=
  find p map.entries

/-- Whether a path has a value. -/
def has (map : Map α) (p : Path) : Bool :=
  (map.get? p).isSome

/-- Put a value in the place of the one under the same path, or else at the end. -/
def putEntry (p : Path) (a : α) : List (Path × α) → List (Path × α)
  | [] => [(p, a)]
  | (q, b) :: rest => if q == p then (q, a) :: rest else (q, b) :: putEntry p a rest

theorem path_of_mem_putEntry {p : Path} {a : α} {entries : List (Path × α)} {entry : Path × α}
    (h : entry ∈ putEntry p a entries) :
    entry.1 = p ∨ ∃ other ∈ entries, other.1 = entry.1 := by
  induction entries with
  | nil =>
    simp only [putEntry, List.mem_singleton] at h
    exact .inl (h ▸ rfl)
  | cons head rest ih =>
    obtain ⟨q, b⟩ := head
    unfold putEntry at h
    split at h
    · rcases List.mem_cons.1 h with rfl | hmem
      · exact .inr ⟨_, List.mem_cons_self, rfl⟩
      · exact .inr ⟨_, List.mem_cons_of_mem _ hmem, rfl⟩
    · rcases List.mem_cons.1 h with rfl | hmem
      · exact .inr ⟨_, List.mem_cons_self, rfl⟩
      · rcases ih hmem with heq | ⟨other, hother, heq⟩
        · exact .inl heq
        · exact .inr ⟨other, List.mem_cons_of_mem _ hother, heq⟩

theorem apart_putEntry {entries : List (Path × α)} (h : entries.Pairwise Apart) (p : Path) (a : α) :
    (putEntry p a entries).Pairwise Apart := by
  induction entries with
  | nil => simp [putEntry]
  | cons head rest ih =>
    obtain ⟨q, b⟩ := head
    obtain ⟨hhead, hrest⟩ := List.pairwise_cons.1 h
    unfold putEntry
    split
    · exact List.pairwise_cons.2 ⟨hhead, hrest⟩
    · rename_i hne
      refine List.pairwise_cons.2 ⟨fun entry hmem => ?_, ih hrest⟩
      rcases path_of_mem_putEntry hmem with heq | ⟨other, hother, heq⟩
      · show (q == entry.1) = false
        rw [heq]
        simpa using hne
      · show (q == entry.1) = false
        rw [← heq]
        exact hhead other hother

/-- Put a value under a path, in place of an older one. -/
def put (map : Map α) (p : Path) (a : α) : Map α :=
  ⟨putEntry p a map.entries, apart_putEntry map.apart p a⟩

/-- The map without a path. -/
def erase (map : Map α) (p : Path) : Map α :=
  ⟨map.entries.filter fun entry => !(entry.1 == p), map.apart.filter _⟩

/-- The map with the entries that have the property. -/
def filter (map : Map α) (keep : Path → α → Bool) : Map α :=
  ⟨map.entries.filter fun entry => keep entry.1 entry.2, map.apart.filter _⟩

/-- The map of a list of entries; later entries replace the values of earlier ones. -/
def ofList (entries : List (Path × α)) : Map α :=
  entries.foldl (fun map entry => map.put entry.1 entry.2) empty

/-- The paths, as they were spelled first. -/
def paths (map : Map α) : List Path :=
  map.entries.map (·.1)

/-- How many paths have a value. -/
def size (map : Map α) : Nat :=
  map.entries.length

@[simp]
theorem get?_empty (p : Path) : (empty : Map α).get? p = none := rfl

theorem find_putEntry_of_same {p q : Path} (h : (p == q) = true) (a : α)
    (entries : List (Path × α)) : find q (putEntry p a entries) = some a := by
  induction entries with
  | nil => simp [putEntry, find, h]
  | cons head rest ih =>
    obtain ⟨r, b⟩ := head
    unfold putEntry
    split
    · rename_i hr
      simp [find, beq_trans hr h]
    · rename_i hr
      have hrq : (r == q) = false := by
        cases hcase : r == q with
        | false => rfl
        | true => exact absurd (beq_trans hcase (beq_symm h)) hr
      simp [find, hrq, ih]

theorem find_putEntry_of_ne {p q : Path} (h : (p == q) = false) (a : α)
    (entries : List (Path × α)) : find q (putEntry p a entries) = find q entries := by
  induction entries with
  | nil => simp [putEntry, find, h]
  | cons head rest ih =>
    obtain ⟨r, b⟩ := head
    unfold putEntry
    split
    · rename_i hr
      have hrq : (r == q) = false := by
        cases hcase : r == q with
        | false => rfl
        | true =>
          have hpq := beq_trans (beq_symm hr) hcase
          rw [h] at hpq
          cases hpq
      simp [find, hrq]
    · simp [find, ih]

theorem get?_put_self {p q : Path} (h : (p == q) = true) (map : Map α) (a : α) :
    (map.put p a).get? q = some a :=
  find_putEntry_of_same h a map.entries

theorem get?_put_of_ne {p q : Path} (h : (p == q) = false) (map : Map α) (a : α) :
    (map.put p a).get? q = map.get? q :=
  find_putEntry_of_ne h a map.entries

theorem find_filter_ne {p q : Path} (entries : List (Path × α)) :
    find q (entries.filter fun entry => !(entry.1 == p)) =
      if p == q then none else find q entries := by
  induction entries with
  | nil => simp [find]
  | cons head rest ih =>
    obtain ⟨r, a⟩ := head
    cases hr : r == p with
    | true =>
      rw [List.filter_cons_of_neg (by simp [hr]), ih]
      cases hpq : p == q with
      | true => rfl
      | false =>
        have hrq : (r == q) = false := by
          cases hcase : r == q with
          | false => rfl
          | true =>
            have := beq_trans (beq_symm hr) hcase
            rw [hpq] at this
            cases this
        simp [find, hrq]
    | false =>
      rw [List.filter_cons_of_pos (by simp [hr])]
      unfold find
      rw [ih]
      cases hrq : r == q with
      | false => simp
      | true =>
        have hpq : (p == q) = false := by
          cases hcase : p == q with
          | false => rfl
          | true =>
            have := beq_trans hrq (beq_symm hcase)
            rw [hr] at this
            cases this
        simp [hpq]

theorem get?_erase (map : Map α) (p q : Path) :
    (map.erase p).get? q = if p == q then none else map.get? q :=
  find_filter_ne map.entries

theorem get?_erase_self {p q : Path} (h : (p == q) = true) (map : Map α) :
    (map.erase p).get? q = none := by
  simp [get?_erase, h]

theorem mem_of_find {entries : List (Path × α)} {p : Path} {a : α} (h : find p entries = some a) :
    ∃ q, (q, a) ∈ entries ∧ (q == p) = true := by
  induction entries with
  | nil => cases h
  | cons head rest ih =>
    obtain ⟨r, b⟩ := head
    unfold find at h
    split at h
    · rename_i hr
      cases h
      exact ⟨r, List.mem_cons_self, hr⟩
    · obtain ⟨q, hmem, hq⟩ := ih h
      exact ⟨q, List.mem_cons_of_mem _ hmem, hq⟩

theorem find_filter_value {entries : List (Path × α)} (happart : entries.Pairwise Apart)
    (keep : α → Bool) (p : Path) :
    find p (entries.filter fun entry => keep entry.2) = (find p entries).filter keep := by
  induction entries with
  | nil => rfl
  | cons head rest ih =>
    obtain ⟨r, a⟩ := head
    obtain ⟨hhead, hrest⟩ := List.pairwise_cons.1 happart
    cases hkeep : keep a with
    | true =>
      rw [List.filter_cons_of_pos (by simpa using hkeep)]
      unfold find
      split
      · simp [Option.filter, hkeep]
      · exact ih hrest
    | false =>
      rw [List.filter_cons_of_neg (by simp [hkeep])]
      rw [ih hrest, find]
      split
      · rename_i hr
        -- no other entry has the path of the one that is dropped
        have hnone : find p rest = none := by
          cases hfound : find p rest with
          | none => rfl
          | some b =>
            obtain ⟨q, hmem, hq⟩ := mem_of_find hfound
            have hsame := beq_trans hr (beq_symm hq)
            have hapart := hhead _ hmem
            simp [Apart, hsame] at hapart
        simp [hnone, Option.filter, hkeep]
      · rfl

theorem get?_filter (map : Map α) (keep : α → Bool) (p : Path) :
    (map.filter fun _ a => keep a).get? p = (map.get? p).filter keep :=
  find_filter_value map.apart keep p

/-- A path has the same value as another spelling of it. -/
theorem get?_congr (map : Map α) {p q : Path} (h : (p == q) = true) :
    map.get? p = map.get? q := by
  have hfind : ∀ entries : List (Path × α), find p entries = find q entries := by
    intro entries
    induction entries with
    | nil => rfl
    | cons head rest ih =>
      obtain ⟨r, a⟩ := head
      have hiff : (r == p) = (r == q) := by
        rw [Bool.eq_iff_iff]
        exact ⟨fun hr => beq_trans hr h, fun hr => beq_trans hr (beq_symm h)⟩
      simp only [find, hiff, ih]
  exact hfind map.entries

/-- The paths of a map are those that have a value. -/
theorem exists_path_iff (map : Map α) (q : Path) :
    (∃ p ∈ map.paths, (p == q) = true) ↔ map.has q = true := by
  have hfind : ∀ entries : List (Path × α),
      (∃ p ∈ entries.map Prod.fst, (p == q) = true) ↔ (find q entries).isSome = true := by
    intro entries
    induction entries with
    | nil => simp [find]
    | cons head rest ih =>
      obtain ⟨r, a⟩ := head
      unfold find
      cases hr : r == q with
      | true => simp [hr]
      | false => simpa [hr] using ih
  exact hfind map.entries

end Map
end Path
end ModuleBundler
