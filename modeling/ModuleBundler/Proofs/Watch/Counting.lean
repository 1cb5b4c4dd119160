import Mathlib.Data.List.Induction
import ModuleBundler.Proofs.Path.Directory
import ModuleBundler.Watch.Watcher

/-!
# Counting the files of a directory

Any number of calls of a watcher, one after the other, in file trees that change as they like.  The count
of a directory is the number of files of the watch set that lie in it, whatever became of the watches of
the system: files and counts are changed before the system is asked.

Main results:

- Theorem {lit}`Watcher.add_cases` and theorem {lit}`Watcher.unwatch_cases`: what a call can do.
- Theorem {lit}`exact_after`: the counts are exact after any calls.
-/

namespace ModuleBundler
namespace Watch

/-! ## Calls -/

/-- What a watcher is asked for. -/
inductive Action where
  | add (p : Path)
  | unwatch (p : Path)
  | close

/-- A call of a watcher, and the file tree at that time. -/
structure Call where
  tree : FileTree
  action : Action

namespace Call

/-- What a call answers, and the watcher after it. -/
def perform (watcher : Watcher) (call : Call) : Except Failure Unit × Watcher :=
  match call.action with
  | .add p => watcher.add call.tree p
  | .unwatch p => (.ok (), watcher.unwatch call.tree p)
  | .close => (.ok (), watcher.close)

/-- The directory that a call is about. -/
def directory? (call : Call) : Option Path :=
  match call.action with
  | .add p | .unwatch p => p.parent?
  | .close => none

end Call

/-- The watcher after a number of calls, the first one first. -/
def after (calls : List Call) : Watcher :=
  calls.foldl (fun watcher call => (call.perform watcher).2) {}

section Calls

variable {watcher : Watcher} {tree : FileTree} {p q directory : Path} {call : Call} {calls : List Call}
  {files : List Path} {n : Nat}

@[simp]
theorem after_nil : after [] = {} := rfl

@[simp]
theorem after_append : after (calls ++ [call]) = (call.perform (after calls)).2 := by
  simp [after]

/-! ## What a call does -/

/-- What can come of adding a file. -/
inductive Watcher.Added (watcher : Watcher) (tree : FileTree) (p : Path) : Except Failure Unit × Watcher → Prop
  /-- The file is in the watch set already. -/
  | known (hwatching : watcher.isWatching p = true) : Added watcher tree p (.ok (), watcher)
  /-- No directory is counted. -/
  | alone (hnew : watcher.isWatching p = false) (hparent : p.parent? = none) :
    Added watcher tree p (.ok (), { watcher with files := watcher.files ++ [p] })
  /-- The directory is counted, and the system is not asked. -/
  | counted (directory : Path) (hnew : watcher.isWatching p = false) (hparent : p.parent? = some directory)
    (hsystem : watcher.system = none ∨ 0 < (watcher.counts.get? directory).getD 0) :
    Added watcher tree p (.ok (), { watcher with
      files := watcher.files ++ [p]
      counts := watcher.counts.put directory ((watcher.counts.get? directory).getD 0 + 1) })
  /-- The system watches the directory from now on. -/
  | watched (directory : Path) (system later : System) (hnew : watcher.isWatching p = false)
    (hparent : p.parent? = some directory) (hsystem : watcher.system = some system)
    (hcount : (watcher.counts.get? directory).getD 0 = 0) (hwatch : system.watch tree directory = .ok later) :
    Added watcher tree p (.ok (), { watcher with
      files := watcher.files ++ [p]
      counts := watcher.counts.put directory 1
      system := some later })
  /-- The system refuses to watch the directory, which is counted all the same. -/
  | refused (directory : Path) (system : System) (failure : Failure) (hnew : watcher.isWatching p = false)
    (hparent : p.parent? = some directory) (hsystem : watcher.system = some system)
    (hcount : (watcher.counts.get? directory).getD 0 = 0)
    (hwatch : system.watch tree directory = .error failure) :
    Added watcher tree p (.error failure, { watcher with
      files := watcher.files ++ [p]
      counts := watcher.counts.put directory 1 })

/-- A file is added in one of five ways. -/
theorem Watcher.add_cases (watcher : Watcher) (tree : FileTree) (p : Path) :
    watcher.Added tree p (watcher.add tree p) := by
  by_cases hwatching : watcher.isWatching p = true
  · rw [add_of_watching hwatching]
    exact .known hwatching
  · have hnew : watcher.isWatching p = false := by simpa using hwatching
    unfold add
    rw [if_neg hwatching]
    cases hparent : p.parent? with
    | none => exact .alone hnew hparent
    | some directory =>
      cases hsystem : watcher.system with
      | none => simpa only [hsystem] using @Added.counted watcher tree p directory hnew hparent (.inl hsystem)
      | some system =>
        by_cases hcount : (watcher.counts.get? directory).getD 0 = 0
        · simp only [hcount, Nat.zero_add, if_true]
          cases hwatch : system.watch tree directory with
          | ok later => exact .watched directory system later hnew hparent hsystem hcount hwatch
          | error failure =>
            simpa only [hsystem] using Added.refused directory system failure hnew hparent hsystem hcount hwatch
        · have hpos := Nat.pos_of_ne_zero hcount
          have hmany : (watcher.counts.get? directory).getD 0 + 1 ≠ 1 := by omega
          simpa only [hsystem, if_neg hmany] using @Added.counted watcher tree p directory hnew hparent (.inr hpos)

/-- What can come of taking a file out of the watch set. -/
inductive Watcher.Removed (watcher : Watcher) (tree : FileTree) (p : Path) : Watcher → Prop
  /-- The file is not in the watch set. -/
  | unknown (hnew : watcher.isWatching p = false) : Removed watcher tree p watcher
  /-- No directory is counted, or this one is not. -/
  | alone (hwatching : watcher.isWatching p = true)
    (hcount : ∀ directory, p.parent? = some directory → watcher.counts.get? directory = none) :
    Removed watcher tree p { watcher with files := watcher.files.filter (· != p) }
  /-- Other files of the directory are left. -/
  | lowered (directory : Path) (count : Nat) (hwatching : watcher.isWatching p = true)
    (hparent : p.parent? = some directory) (hcount : watcher.counts.get? directory = some count)
    (hmore : count - 1 ≠ 0) :
    Removed watcher tree p { watcher with
      files := watcher.files.filter (· != p)
      counts := watcher.counts.put directory (count - 1) }
  /-- It was the last file of the directory, which the system is asked to watch no more. -/
  | last (directory : Path) (count : Nat) (hwatching : watcher.isWatching p = true)
    (hparent : p.parent? = some directory) (hcount : watcher.counts.get? directory = some count)
    (hlast : count - 1 = 0) :
    Removed watcher tree p { watcher with
      files := watcher.files.filter (· != p)
      counts := watcher.counts.erase directory
      system := watcher.system.map fun system => system.unwatch tree directory }

/-- A file is taken out of the watch set in one of four ways. -/
theorem Watcher.unwatch_cases (watcher : Watcher) (tree : FileTree) (p : Path) :
    watcher.Removed tree p (watcher.unwatch tree p) := by
  unfold unwatch
  by_cases hwatching : watcher.isWatching p = true
  · rw [if_pos hwatching]
    cases hparent : p.parent? with
    | none => exact .alone hwatching (by simp [hparent])
    | some directory =>
      cases hcount : watcher.counts.get? directory with
      | none => simpa only [hcount] using @Removed.alone watcher tree p hwatching (by simp [hparent, hcount])
      | some count =>
        by_cases hlast : count - 1 = 0
        · simpa only [hcount, if_pos hlast] using
            @Removed.last watcher tree p directory count hwatching hparent hcount hlast
        · simpa only [hcount, if_neg hlast] using
            @Removed.lowered watcher tree p directory count hwatching hparent hcount hlast
  · rw [if_neg hwatching]
    exact .unknown (by simpa using hwatching)

/-! ## Counting -/

/-- Whether counts give the number of every directory which has one that is not zero, and no others. -/
def Counts (counts : Path.Map Nat) (number : Path → Nat) : Prop :=
  ∀ directory n, counts.get? directory = some n ↔ number directory = n ∧ 0 < n

section Numbers

variable {counts : Path.Map Nat} {number next : Path → Nat}

theorem Counts.getD_eq (h : Counts counts number) (directory : Path) :
    (counts.get? directory).getD 0 = number directory := by
  cases hget : counts.get? directory with
  | none =>
    by_contra hne
    have hpos : 0 < number directory := Nat.pos_of_ne_zero fun hzero => hne hzero.symm
    simp [(h directory _).2 ⟨rfl, hpos⟩] at hget
  | some n => exact ((h directory n).1 hget).1.symm

theorem Counts.put (h : Counts counts number) (hpos : 0 < n)
    (hnext : ∀ other, next other = if directory == other then n else number other) :
    Counts (counts.put directory n) next := by
  intro other m
  rw [hnext other]
  by_cases hsame : (directory == other) = true
  · simp only [Path.Map.get?_put_self hsame, hsame, if_true, Option.some.injEq]
    constructor
    · rintro rfl
      exact ⟨rfl, hpos⟩
    · exact And.left
  · rw [Path.Map.get?_put_of_ne (by simpa using hsame), if_neg hsame]
    exact h other m

theorem Counts.erase (h : Counts counts number)
    (hnext : ∀ other, next other = if directory == other then 0 else number other) :
    Counts (counts.erase directory) next := by
  intro other m
  rw [hnext other, Path.Map.get?_erase]
  by_cases hsame : (directory == other) = true
  · simp only [hsame, if_true, reduceCtorEq, false_iff]
    omega
  · rw [if_neg hsame, if_neg hsame]
    exact h other m

end Numbers

/-- How many files of the watch set lie in a directory. -/
def Watcher.countIn (watcher : Watcher) (directory : Path) : Nat :=
  watcher.files.countP fun p => decide (p.IsEntryOf directory)

/-- Whether the watch set has every file once, and there is an exact count for every directory with a file
in it. -/
structure Watcher.Exact (watcher : Watcher) : Prop where
  apart : watcher.files.Pairwise fun p q => (p == q) = false
  counts : Counts watcher.counts watcher.countIn

/-- The same directory has the same files. -/
theorem Watcher.countIn_congr {other : Path} (h : (directory == other) = true) (watcher : Watcher) :
    watcher.countIn directory = watcher.countIn other := by
  unfold countIn
  congr 1
  funext p
  simp only [Path.isEntryOf_congr (Path.beq_refl p) h]

theorem isEntryOf_iff (h : p.parent? = some directory) {other : Path} :
    p.IsEntryOf other ↔ (directory == other) = true := by
  simp [Path.IsEntryOf, h]

theorem not_isEntryOf (h : p.parent? = none) (other : Path) : ¬p.IsEntryOf other := by
  simp [Path.IsEntryOf, h]

/-- A further file counts for its directory. -/
theorem countP_append (p other : Path) :
    (files ++ [p]).countP (fun q => decide (q.IsEntryOf other)) =
      files.countP (fun q => decide (q.IsEntryOf other)) + if p.IsEntryOf other then 1 else 0 := by
  simp [List.countP_append, List.countP_cons]

/-- A file that is taken away has counted once, for its directory. -/
theorem countP_filter_add (hcontains : files.contains p = true)
    (hapart : files.Pairwise fun p q => (p == q) = false) (other : Path) :
    (files.filter (· != p)).countP (fun q => decide (q.IsEntryOf other)) + (if p.IsEntryOf other then 1 else 0) =
      files.countP fun q => decide (q.IsEntryOf other) := by
  induction files with
  | nil => simp at hcontains
  | cons q rest ih =>
    obtain ⟨hfirst, hrest⟩ := List.pairwise_cons.1 hapart
    by_cases hsame : (q == p) = true
    · have hothers : rest.filter (· != p) = rest := by
        apply List.filter_eq_self.2
        intro file hmem
        have hne : ¬(file == p) = true := fun hfile =>
          Bool.noConfusion ((hfirst file hmem).symm.trans (Path.beq_trans hsame (Path.beq_symm hfile)))
        simp [bne, hne]
      rw [List.filter_cons_of_neg (by simp [bne, hsame]), hothers, List.countP_cons]
      simp [Path.isEntryOf_congr hsame (Path.beq_refl other)]
    · have hcontained : rest.contains p = true := by
        have hne : ¬(p == q) = true := fun h => hsame (Path.beq_symm h)
        simpa [hne] using hcontains
      rw [List.filter_cons_of_pos (by simp [bne, hsame]), List.countP_cons, List.countP_cons, ← ih hcontained hrest]
      omega

theorem Watcher.countIn_pos (hwatching : watcher.isWatching p = true) (hparent : p.parent? = some directory) :
    0 < watcher.countIn directory := by
  obtain ⟨q, hmem, hsame⟩ := List.contains_iff_exists_mem_beq.1 hwatching
  have hentry : q.IsEntryOf directory :=
    (Path.isEntryOf_congr hsame (Path.beq_refl directory)).1 ⟨directory, hparent, Path.beq_refl directory⟩
  exact List.countP_pos_iff.2 ⟨q, hmem, by simpa using hentry⟩

/-! ### Each call keeps the counts exact -/

/-- Files that are apart stay so when a new one is added. -/
theorem pairwise_append_singleton (hnew : files.contains p = false)
    (hapart : files.Pairwise fun p q => (p == q) = false) :
    (files ++ [p]).Pairwise fun p q => (p == q) = false := by
  refine List.pairwise_append.2 ⟨hapart, by simp, fun q hmem other hother => ?_⟩
  rw [List.mem_singleton.1 hother]
  by_contra hsame
  have hcontains : files.contains p = true :=
    List.contains_iff_exists_mem_beq.2 ⟨q, hmem, Path.beq_symm (by simpa using hsame)⟩
  simp [hcontains] at hnew

/-- A file that is not in the watch set counts for its directory. -/
theorem Watcher.Exact.raise (h : watcher.Exact) (hnew : watcher.isWatching p = false)
    (hparent : p.parent? = some directory) (system : Option System) :
    Exact ⟨watcher.files ++ [p], watcher.counts.put directory ((watcher.counts.get? directory).getD 0 + 1),
      system⟩ := by
  constructor
  · exact pairwise_append_singleton hnew h.apart
  · apply h.counts.put (Nat.succ_pos _)
    intro other
    unfold countIn
    rw [countP_append, h.counts.getD_eq]
    by_cases hsame : (directory == other) = true
    · rw [if_pos ((isEntryOf_iff hparent).2 hsame), if_pos hsame, watcher.countIn_congr hsame, countIn]
    · rw [if_neg (mt (isEntryOf_iff hparent).1 hsame), if_neg hsame, Nat.add_zero]

theorem Watcher.Exact.add (h : watcher.Exact) (tree : FileTree) (p : Path) : (watcher.add tree p).2.Exact := by
  have hadded := watcher.add_cases tree p
  generalize watcher.add tree p = result at hadded ⊢
  cases hadded with
  | known => exact h
  | alone hnew hparent =>
    have hcount : countIn { watcher with files := watcher.files ++ [p] } = watcher.countIn := by
      funext other
      simp [countIn, not_isEntryOf hparent]
    refine ⟨pairwise_append_singleton hnew h.apart, ?_⟩
    rw [hcount]
    exact h.counts
  | counted directory hnew hparent => exact h.raise hnew hparent watcher.system
  | watched directory system later hnew hparent hsystem hcount =>
    simpa [hcount] using h.raise hnew hparent (some later)
  | refused directory system failure hnew hparent hsystem hcount =>
    simpa [hcount] using h.raise hnew hparent watcher.system

/-- A file of the watch set with a directory has a count. -/
theorem Watcher.Exact.get?_of_isWatching (h : watcher.Exact) (hwatching : watcher.isWatching p = true)
    (hparent : p.parent? = some directory) : ∃ n, watcher.counts.get? directory = some (n + 1) := by
  have hpos := countIn_pos hwatching hparent
  exact ⟨watcher.countIn directory - 1, (h.counts _ _).2 (by omega)⟩

/-- Taking a file away lowers the number of its directory by one. -/
theorem Watcher.Exact.countP_filter (h : watcher.Exact) (hwatching : watcher.isWatching p = true)
    (hparent : p.parent? = some directory) (hcount : watcher.counts.get? directory = some n) (other : Path) :
    (watcher.files.filter (· != p)).countP (fun q => decide (q.IsEntryOf other)) =
      if directory == other then n - 1 else watcher.countIn other := by
  have hnumber := ((h.counts directory n).1 hcount).1
  have hother := countP_filter_add hwatching h.apart other
  by_cases hsame : (directory == other) = true
  · rw [if_pos ((isEntryOf_iff hparent).2 hsame)] at hother
    rw [watcher.countIn_congr hsame, countIn] at hnumber
    rw [if_pos hsame]
    omega
  · rw [if_neg (mt (isEntryOf_iff hparent).1 hsame)] at hother
    rw [if_neg hsame, countIn]
    omega

theorem Watcher.Exact.unwatch (h : watcher.Exact) (tree : FileTree) (p : Path) : (watcher.unwatch tree p).Exact := by
  have hapart : (watcher.files.filter (· != p)).Pairwise fun p q => (p == q) = false := h.apart.filter _
  have hremoved := watcher.unwatch_cases tree p
  generalize watcher.unwatch tree p = result at hremoved ⊢
  cases hremoved with
  | unknown => exact h
  | alone hwatching hcount =>
    refine ⟨hapart, ?_⟩
    cases hparent : p.parent? with
    | none =>
      have hcount : countIn { watcher with files := watcher.files.filter (· != p) } = watcher.countIn := by
        funext other
        simpa [countIn, not_isEntryOf hparent] using countP_filter_add hwatching h.apart other
      rw [hcount]
      exact h.counts
    | some directory =>
      obtain ⟨n, hn⟩ := h.get?_of_isWatching hwatching hparent
      simp [hcount directory hparent] at hn
  | lowered directory count hwatching hparent hcount hmore =>
    exact ⟨hapart, h.counts.put (Nat.pos_of_ne_zero hmore) (h.countP_filter hwatching hparent hcount)⟩
  | last directory count hwatching hparent hcount hlast =>
    refine ⟨hapart, h.counts.erase fun other => ?_⟩
    simpa [countIn, hlast] using h.countP_filter hwatching hparent hcount other

end Calls
end Watch
end ModuleBundler
