import ModuleBundler.FileTree.Edit

/-!
# Writing files

Writing a file puts it where its path leads, and leaves everything else as it
is, but for the time of the directory that a new file comes into.  So a walk that
led somewhere before still leads there.

Main results:

- Theorem {lit}`FileTree.Keeps.find`: what a path leads to is still there when all is kept.
- Theorem {lit}`FileTree.readBytes_writeBytes`: a file that was written is read back.
- Theorem {lit}`FileTree.makeDirectories_of_isDirectory`: directories that are there are not made anew.
- Theorem {lit}`FileTree.exists_writeBytes`: a file can be written where there is one already, or nothing.
-/

namespace ModuleBundler
namespace FileTree

/-! ## What writing changes -/

/-- Whether there is the same at an address before and after, or a directory both times. -/
inductive Stays : Option Entry → Option Entry → Prop
  | same (entry : Option Entry) : Stays entry entry
  | directory (before after : Int) : Stays (some (.directory before)) (some (.directory after))

theorem stays_stir (tree : FileTree) (address other : Address) :
    Stays (tree.at? other) ((tree.stir address).at? other) := by
  unfold stir
  split
  · rename_i time hat
    change Stays (tree.at? other) ((tree.set address (.directory tree.clock)).at? other)
    by_cases heq : other = address
    · rw [heq, at?_set_self, hat]
      exact .directory _ _
    · rw [at?_set_of_ne _ heq]
      exact .same _
  · exact .same _

theorem home_stir (tree : FileTree) (address : Address) : (tree.stir address).home = tree.home := by
  unfold stir
  split <;> rfl

/-- A tree before and after a file was written, where a file was before or nothing. -/
structure Writes (before after : FileTree) (target : Address) (content : ByteArray) : Prop where
  home : after.home = before.home
  free : ∀ entry, before.at? target = some entry → entry.isFile = true
  file : after.at? target = some (.file content before.clock)
  others : ∀ address, address ≠ target → Stays (before.at? address) (after.at? address)

/-- Adding an entry changes nothing but the time of its directory. -/
theorem stays_add (tree : FileTree) {target address : Address} (entry : Entry) (h : address ≠ target) :
    Stays (tree.at? address) ((tree.add target entry).at? address) := by
  have hstays := stays_stir (tree.set target entry) target.dropLast address
  rwa [at?_set_of_ne _ h] at hstays

theorem writes_add {tree : FileTree} {target : Address} (h : tree.at? target = none) (content : ByteArray) :
    Writes tree (tree.add target (.file content tree.clock)) target content := by
  refine ⟨home_stir _ _, ?_, ?_, fun address haddress => stays_add tree _ haddress⟩
  · intro entry hat
    rw [h] at hat
    cases hat
  · have hstays := stays_stir (tree.set target (.file content tree.clock)) target.dropLast target
    rw [at?_set_self] at hstays
    generalize hafter : ((tree.set target (.file content tree.clock)).stir target.dropLast).at? target =
      after at hstays
    cases hstays
    exact hafter

theorem writes_set {tree : FileTree} {target : Address} {old : ByteArray} {time : Int}
    (h : tree.at? target = some (.file old time)) (content : ByteArray) (clock : Int) :
    Writes tree { tree.set target (.file content tree.clock) with clock } target content := by
  refine ⟨rfl, fun entry hat => ?_, at?_set_self tree target _, fun address haddress => ?_⟩
  · rw [h] at hat
    cases hat
    rfl
  · have hset : ({ tree.set target (.file content tree.clock) with clock } : FileTree).at? address =
        tree.at? address := at?_set_of_ne tree haddress _
    rw [hset]
    exact .same _

/-! ## Steps of walks -/

section Steps

variable {tree : FileTree} {links : Nat} {here : Address} {slash : Bool} {name : String} {rest : List Step}

theorem walk_use_directory {changed : Int} (hlong : ¬maxName < name.utf8ByteSize)
    (hat : tree.at? (here ++ [name]) = some (.directory changed)) :
    tree.walk .use links here slash (.name name :: rest) =
      tree.walk .use links (here ++ [name]) slash rest := by
  rw [FileTree.walk]
  simp [hlong, hat]

theorem walk_use_file {content : ByteArray} {changed : Int} (hlong : ¬maxName < name.utf8ByteSize)
    (hat : tree.at? (here ++ [name]) = some (.file content changed)) (hlast : rest.isEmpty = true)
    (hslash : slash = false) :
    tree.walk .use links here slash (.name name :: rest) =
      .ok ⟨here ++ [name], some (.file content changed)⟩ := by
  rw [FileTree.walk]
  simp [hlong, hat, hlast, hslash]

theorem walk_use_link {link : Path} (hlong : ¬maxName < name.utf8ByteSize)
    (hat : tree.at? (here ++ [name]) = some (.link link)) :
    tree.walk .use (links + 1) here slash (.name name :: rest) =
      tree.walk .use links (if link.isAbsolute then [] else here)
        (slash || rest.isEmpty && endsInSlash link) (Step.ofPath link ++ rest) := by
  rw [FileTree.walk]
  simp [hlong, hat]

theorem walk_make_last {entry : Entry} (hlong : ¬maxName < name.utf8ByteSize) (hlast : rest.isEmpty = true)
    (hat : tree.at? (here ++ [name]) = some entry) :
    tree.walk .make links here slash (.name name :: rest) = .ok ⟨here ++ [name], some entry⟩ := by
  rw [FileTree.walk]
  simp [hlong, hlast, hat]

end Steps

/-! ## What writing keeps -/

/-- Whether all that was there is still there: directories are directories, files are files, and links lead
to the same places. -/
structure Keeps (before after : FileTree) : Prop where
  home : after.home = before.home
  directory : ∀ {address : Address} {time : Int}, before.at? address = some (.directory time) →
    ∃ later, after.at? address = some (.directory later)
  file : ∀ {address : Address} {old : ByteArray} {time : Int}, before.at? address = some (.file old time) →
    ∃ content time, after.at? address = some (.file content time)
  link : ∀ {address : Address} {target : Path}, before.at? address = some (.link target) →
    after.at? address = some (.link target)

namespace Writes

variable {before after : FileTree} {target : Address} {content : ByteArray}

theorem directory (h : Writes before after target content) {address : Address} {time : Int}
    (hat : before.at? address = some (.directory time)) :
    ∃ later, after.at? address = some (.directory later) := by
  have hne : address ≠ target := by
    rintro rfl
    cases h.free _ hat
  have hstays := h.others address hne
  rw [hat] at hstays
  generalize after.at? address = entry at hstays
  cases hstays with
  | same => exact ⟨time, rfl⟩
  | directory _ later => exact ⟨later, rfl⟩

theorem link (h : Writes before after target content) {address : Address} {link : Path}
    (hat : before.at? address = some (.link link)) : after.at? address = some (.link link) := by
  have hne : address ≠ target := by
    rintro rfl
    cases h.free _ hat
  have hstays := h.others address hne
  rw [hat] at hstays
  generalize after.at? address = entry at hstays
  cases hstays
  rfl

theorem exists_file (h : Writes before after target content) {address : Address} {old : ByteArray}
    {time : Int} (hat : before.at? address = some (.file old time)) :
    ∃ content time, after.at? address = some (.file content time) := by
  by_cases heq : address = target
  · exact ⟨content, before.clock, heq ▸ h.file⟩
  · have hstays := h.others address heq
    rw [hat] at hstays
    generalize after.at? address = entry at hstays
    cases hstays
    exact ⟨old, time, rfl⟩

theorem file_of_ne (h : Writes before after target content) {address : Address} {old : ByteArray} {time : Int}
    (hat : before.at? address = some (.file old time)) (hne : address ≠ target) :
    after.at? address = some (.file old time) := by
  have hstays := h.others address hne
  rw [hat] at hstays
  generalize after.at? address = entry at hstays
  cases hstays
  rfl

theorem none_of_ne (h : Writes before after target content) {address : Address}
    (hnone : before.at? address = none) (hne : address ≠ target) : after.at? address = none := by
  have hstays := h.others address hne
  rw [hnone] at hstays
  generalize after.at? address = entry at hstays
  cases hstays
  rfl

/-- A place where a file can be written is such a place after another file was written. -/
theorem isFile (h : Writes before after target content) {address : Address}
    (hfree : ∀ entry, before.at? address = some entry → entry.isFile = true) :
    ∀ entry, after.at? address = some entry → entry.isFile = true := by
  intro entry hafter
  by_cases htarget : address = target
  · rw [htarget, h.file] at hafter
    cases hafter
    rfl
  · have hstays := h.others address htarget
    rw [hafter] at hstays
    generalize hbefore : before.at? address = old at hstays
    cases hstays with
    | same => exact hfree entry hbefore
    | directory time later => cases hfree _ hbefore

end Writes

theorem Writes.keeps {before after : FileTree} {target : Address} {content : ByteArray}
    (h : Writes before after target content) : Keeps before after :=
  ⟨h.home, h.directory, h.exists_file, h.link⟩

theorem keeps_add {tree : FileTree} {target : Address} (h : tree.at? target = none) (entry : Entry) :
    Keeps tree (tree.add target entry) := by
  have hstays {address : Address} {old : Entry} (hat : tree.at? address = some old) :
      Stays (some old) ((tree.add target entry).at? address) := by
    have hne : address ≠ target := by
      rintro rfl
      rw [h] at hat
      cases hat
    have hstays := stays_add tree entry hne
    rwa [hat] at hstays
  refine ⟨home_stir _ _, fun {address time} hat => ?_, fun {address old time} hat => ?_,
    fun {address link} hat => ?_⟩
  · have hafter := hstays hat
    generalize (tree.add target entry).at? address = after at hafter
    cases hafter with
    | same => exact ⟨time, rfl⟩
    | directory _ later => exact ⟨later, rfl⟩
  · have hafter := hstays hat
    generalize (tree.add target entry).at? address = after at hafter
    cases hafter
    exact ⟨old, time, rfl⟩
  · have hafter := hstays hat
    generalize (tree.add target entry).at? address = after at hafter
    cases hafter
    rfl

/-! ## Walks when all is kept -/

/-- Where a walk ends at an entry, or where a file has been written, it ends as well when all is kept. -/
theorem Keeps.walk {before after : FileTree} (h : Keeps before after) {aim : Aim} {links : Nat}
    {here : Address} {slash : Bool} {steps : List Step} {spot : Spot} (haim : aim = .use ∨ aim = .write)
    (hwalk : before.walk aim links here slash steps = .ok spot)
    (hthere : spot.entry ≠ none ∨
      aim = .write ∧ ∃ content time, after.at? spot.address = some (.file content time)) :
    after.walk .use links here slash steps = .ok ⟨spot.address, after.at? spot.address⟩ := by
  fun_induction before.walk aim links here slash steps with
  | case1 links here slash =>
    cases hwalk
    exact walk_nil _ _ _ _ _
  | case2 links here slash rest ih =>
    rw [FileTree.walk]
    exact ih hwalk
  | case3 links here slash rest ih =>
    rw [FileTree.walk]
    exact ih hwalk
  | case6 links here slash name rest last hslash hlong address hat hlast =>
    cases hwalk
    obtain hsome | ⟨rfl, content, time, hfile⟩ := hthere
    · exact absurd rfl hsome
    · -- nothing was there, so that this is the place of the new file
      have hslash : slash = false := by simpa [last, hlast] using hslash
      have hfile : after.at? (here ++ [name]) = some (.file content time) := hfile
      rw [walk_use_file hlong hfile hlast hslash, hfile]
  | case9 links here slash name rest last hslash hlong address hmake changed hat ih =>
    obtain ⟨later, hafter⟩ := h.directory hat
    rw [walk_use_directory hlong hafter]
    exact ih hwalk
  | case10 links here slash name rest last hslash hlong address hmake text changed hends hat =>
    obtain ⟨hlast, hslash⟩ : last = true ∧ slash = false := by simpa using hends
    cases hwalk
    obtain ⟨text, time, hafter⟩ := h.file hat
    rw [walk_use_file hlong hafter hlast hslash, hafter]
  | case14 here slash name rest last hslash hlong address hmake link htake links hat ih =>
    rw [walk_use_link hlong (h.link hat)]
    exact ih hwalk
  | case8 links here slash name rest last hslash hlong address entry hat hmake =>
    obtain rfl | rfl := haim <;> simp at hmake
  | case12 links here slash name rest last hslash hlong address hmake link htake hat =>
    obtain rfl | rfl := haim <;> simp at htake
  | _ => cases hwalk

/-- A walk ends at what is at the address where it ends. -/
theorem walk_entry {tree : FileTree} {aim : Aim} {links : Nat} {here : Address} {slash : Bool}
    {steps : List Step} {spot : Spot} (h : tree.walk aim links here slash steps = .ok spot) :
    spot.entry = tree.at? spot.address := by
  fun_induction tree.walk aim links here slash steps with
  | case1 links here slash => cases h; rfl
  | case2 links here slash rest ih => exact ih h
  | case3 links here slash rest ih => exact ih h
  | case6 links here slash name rest last hslash hlong address hat hlast => cases h; exact hat.symm
  | case8 links here slash name rest last hslash hlong address entry hat hmake => cases h; exact hat.symm
  | case9 links here slash name rest last hslash hlong address hmake changed hat ih => exact ih h
  | case10 links here slash name rest last hslash hlong address hmake text changed hends hat =>
    cases h
    exact hat.symm
  | case12 links here slash name rest last hslash hlong address hmake link htake hat =>
    cases h
    exact hat.symm
  | case14 here slash name rest last hslash hlong address hmake link htake links hat ih => exact ih h
  | _ => cases h

/-- Where a walk finds an entry, nothing can be made. -/
theorem walk_make {tree : FileTree} {links : Nat} {here : Address} {slash : Bool} {steps : List Step}
    {address : Address} {entry : Entry}
    (h : tree.walk .use links here slash steps = .ok ⟨address, some entry⟩) :
    ∃ address entry, tree.walk .make links here slash steps = .ok ⟨address, some entry⟩ := by
  fun_induction tree.walk .use links here slash steps with
  | case1 links here slash =>
    rw [walk_nil]
    exact ⟨address, entry, h⟩
  | case2 links here slash rest ih =>
    rw [FileTree.walk]
    exact ih h
  | case3 links here slash rest ih =>
    rw [FileTree.walk]
    exact ih h
  | case9 links here slash name rest last hslash hlong address hmake changed hat ih =>
    have hat : tree.at? (here ++ [name]) = some (.directory changed) := hat
    by_cases hlast : rest.isEmpty = true
    · exact ⟨_, _, walk_make_last hlong hlast hat⟩
    · rw [FileTree.walk]
      simpa [hlong, hlast, hat] using ih h
  | case10 links here slash name rest last hslash hlong address hmake text changed hends hat =>
    exact ⟨_, _, walk_make_last hlong (Bool.and_eq_true_iff.1 hends).1 hat⟩
  | case14 here slash name rest last hslash hlong address hmake link htake links hat ih =>
    have hat : tree.at? (here ++ [name]) = some (.link link) := hat
    by_cases hlast : rest.isEmpty = true
    · exact ⟨_, _, walk_make_last hlong hlast hat⟩
    · rw [FileTree.walk]
      simpa [hlong, hlast, hat, last] using ih h
  | case6 links here slash name rest last hslash hlong address hat hlast => simp at h
  | case8 links here slash name rest last hslash hlong address other hat hmake => simp at hmake
  | case12 links here slash name rest last hslash hlong address hmake link htake hat => simp at htake
  | _ => cases h

/-! ## Paths -/

section Paths

variable {before after : FileTree} {target : Address} {content : ByteArray}

/-- A path that can be walked at all is walked in every tree and for every aim. -/
theorem locate_eq_walk {tree : FileTree} {aim : Aim} {p : Path} {spot : Spot}
    (h : tree.locate aim p = .ok spot) (other : FileTree) (purpose : Aim) :
    other.locate purpose p = other.walk purpose maxLinks (if p.isAbsolute then [] else other.home)
      (endsInSlash p) (Step.ofPath p) := by
  unfold FileTree.locate at h ⊢
  split at h
  · cases h
  · rename_i hnul
    rw [if_neg hnul]
    split at h
    · cases h
    · rename_i hempty
      rw [if_neg hempty]
      split at h
      · cases h
      · rename_i hlong
        rw [if_neg hlong]

theorem locate_entry {tree : FileTree} {aim : Aim} {p : Path} {spot : Spot}
    (h : tree.locate aim p = .ok spot) : spot.entry = tree.at? spot.address := by
  rw [locate_eq_walk h] at h
  exact walk_entry h

theorem Keeps.locate (h : Keeps before after) {aim : Aim} {p : Path} {spot : Spot}
    (haim : aim = .use ∨ aim = .write) (hlocate : before.locate aim p = .ok spot)
    (hthere : spot.entry ≠ none ∨
      aim = .write ∧ ∃ content time, after.at? spot.address = some (.file content time)) :
    after.locate .use p = .ok ⟨spot.address, after.at? spot.address⟩ := by
  have hwalk := hlocate
  rw [locate_eq_walk hlocate] at hwalk
  rw [locate_eq_walk hlocate, h.home]
  exact h.walk haim hwalk hthere

theorem find_eq_ok_iff {tree : FileTree} {p : Path} {address : Address} {entry : Entry} :
    tree.find p = .ok (address, entry) ↔ tree.locate .use p = .ok ⟨address, some entry⟩ := by
  unfold FileTree.find
  constructor
  · intro h
    split at h
    · rename_i hlocate
      cases h
      exact hlocate
    · cases h
    · cases h
  · intro h
    rw [h]

/-- What a path leads to is still there when all is kept. -/
theorem Keeps.find (h : Keeps before after) {p : Path} {address : Address} {entry : Entry}
    (hfind : before.find p = .ok (address, entry)) :
    ∃ other, after.find p = .ok (address, other) ∧ after.at? address = some other := by
  have hlocate := find_eq_ok_iff.1 hfind
  have hat : some entry = before.at? address := locate_entry hlocate
  have hafter : ∃ other, after.at? address = some other := by
    cases entry with
    | directory time => obtain ⟨later, hafter⟩ := h.directory hat.symm; exact ⟨_, hafter⟩
    | file old time => obtain ⟨content, time, hafter⟩ := h.file hat.symm; exact ⟨_, hafter⟩
    | link link => exact ⟨_, h.link hat.symm⟩
  obtain ⟨other, hafter⟩ := hafter
  have hthere := h.locate (.inl rfl) hlocate (.inl (Option.some_ne_none entry))
  rw [hafter] at hthere
  exact ⟨other, find_eq_ok_iff.2 hthere, hafter⟩

/-- A file that was written is where its path leads. -/
theorem writes_writeBytes {tree after : FileTree} {p : Path} {content : ByteArray}
    (h : tree.writeBytes p content = (after, .ok ())) :
    ∃ target, Writes tree after target content ∧ after.find p = .ok (target, .file content tree.clock) := by
  unfold writeBytes at h
  dsimp only at h
  split at h
  · rename_i target hlocate
    cases h
    have hwrites := writes_add (locate_entry hlocate).symm content
    have hthere := hwrites.keeps.locate (.inr rfl) hlocate (.inr ⟨rfl, _, _, hwrites.file⟩)
    rw [hwrites.file] at hthere
    exact ⟨target, hwrites, find_eq_ok_iff.2 hthere⟩
  · rename_i target old time hlocate
    cases h
    have hwrites := writes_set (locate_entry hlocate).symm content (tree.clock + 1)
    have hthere := hwrites.keeps.locate (.inr rfl) hlocate (.inl (Option.some_ne_none _))
    rw [hwrites.file] at hthere
    exact ⟨target, hwrites, find_eq_ok_iff.2 hthere⟩
  · cases h
  · cases h

/-- A file that was written is read back. -/
theorem readBytes_writeBytes {tree after : FileTree} {p : Path} {content : ByteArray}
    (h : tree.writeBytes p content = (after, .ok ())) : after.readBytes p = .ok content := by
  obtain ⟨target, -, hfind⟩ := writes_writeBytes h
  rw [readBytes, hfind]

/-- A tree stays as it is where a file cannot be written. -/
theorem writeBytes_error {tree after : FileTree} {p : Path} {content : ByteArray} {fault : FileFault}
    (h : tree.writeBytes p content = (after, .error fault)) : after = tree := by
  unfold writeBytes at h
  dsimp only at h
  split at h <;> cases h <;> rfl

end Paths

/-! ## Directories that are there -/

/-- Where a path leads to something, nothing can be made. -/
theorem makeDirectory_of_find {tree : FileTree} {p : Path} {found : Address × Entry}
    (h : tree.find p = .ok found) : tree.makeDirectory p = .error .alreadyExists := by
  have hlocate := find_eq_ok_iff.1 (show tree.find p = .ok (found.1, found.2) from h)
  have hwalk := hlocate
  rw [locate_eq_walk hlocate] at hwalk
  obtain ⟨address, entry, hmake⟩ := walk_make hwalk
  rw [← locate_eq_walk hlocate] at hmake
  rw [makeDirectory, hmake]

/-- A directory that is there is not made anew. -/
theorem makeDirectories_of_isDirectory {tree : FileTree} {p : Path} (h : tree.isDirectory p = true) :
    tree.makeDirectories p = (tree, .ok ()) := by
  have hmake : tree.makeDirectory p = .error .alreadyExists := by
    unfold FileTree.isDirectory at h
    cases hfind : tree.find p with
    | error fault => rw [hfind] at h; cases h
    | ok found => exact makeDirectory_of_find hfind
  unfold makeDirectories
  rw [makeChain]
  split
  · rfl
  · rw [hmake]
    simp [h]

theorem find_of_readBytes {tree : FileTree} {p : Path} {content : ByteArray}
    (h : tree.readBytes p = .ok content) :
    ∃ address time, tree.find p = .ok (address, .file content time) := by
  unfold readBytes at h
  split at h
  · rename_i address found time hfind
    cases h
    exact ⟨address, time, hfind⟩
  · cases h
  · cases h

/-- A file stays as it is when a directory is made. -/
theorem readBytes_makeDirectory {tree after : FileTree} {p q : Path} {content : ByteArray}
    (h : tree.makeDirectory p = .ok after) (hread : tree.readBytes q = .ok content) :
    after.readBytes q = .ok content := by
  unfold makeDirectory at h
  split at h
  · rename_i target hlocate
    cases h
    have hfree : none = tree.at? target := locate_entry hlocate
    obtain ⟨address, time, hfind⟩ := find_of_readBytes hread
    have hat : some (.file content time) = tree.at? address := locate_entry (find_eq_ok_iff.1 hfind)
    obtain ⟨other, hother, hafter⟩ := (keeps_add hfree.symm (.directory tree.clock)).find hfind
    have hne : address ≠ target := by
      rintro rfl
      rw [← hfree] at hat
      cases hat
    have hstays := stays_add tree (.directory tree.clock) hne
    rw [← hat, hafter] at hstays
    cases hstays
    rw [readBytes, hother]
  · cases h
  · cases h

theorem readBytes_makeChain {tree : FileTree} {paths : List Path} {q : Path} {content : ByteArray}
    (hread : tree.readBytes q = .ok content) : (tree.makeChain paths).1.readBytes q = .ok content := by
  induction paths with
  | nil => exact hread
  | cons p outer ih =>
    rw [makeChain]
    split
    · exact hread
    · split
      · rename_i after hmake
        exact readBytes_makeDirectory hmake hread
      · generalize tree.makeChain outer = chain at ih
        obtain ⟨middle, result⟩ := chain
        cases result with
        | error fault => exact ih
        | ok =>
          dsimp only
          split
          · rename_i after hmake
            exact readBytes_makeDirectory hmake ih
          · split <;> exact ih
      · dsimp only
        split <;> exact hread

/-- A file stays as it is when directories are made. -/
theorem readBytes_makeDirectories {tree : FileTree} {p q : Path} {content : ByteArray}
    (hread : tree.readBytes q = .ok content) : (tree.makeDirectories p).1.readBytes q = .ok content :=
  readBytes_makeChain hread

/-! ## Paths that spell addresses -/

/-- Whether a path spells an address name by name, from the root on. -/
structure Spells (p : Path) (address : Address) : Prop where
  nul : p.text.toList.contains '\x00' = false
  short : p.text.utf8ByteSize ≤ maxPath
  absolute : p.isAbsolute = true
  slash : endsInSlash p = false
  steps : Step.ofPath p = address.map .name
  names : ∀ name ∈ address, name.utf8ByteSize ≤ maxName

instance (p : Path) (address : Address) : Decidable (Spells p address) :=
  decidable_of_iff (p.text.toList.contains '\x00' = false ∧ p.text.utf8ByteSize ≤ maxPath ∧
      p.isAbsolute = true ∧ endsInSlash p = false ∧ Step.ofPath p = address.map .name ∧
        ∀ name ∈ address, name.utf8ByteSize ≤ maxName)
    ⟨fun h => ⟨h.1, h.2.1, h.2.2.1, h.2.2.2.1, h.2.2.2.2.1, h.2.2.2.2.2⟩,
      fun h => ⟨h.nul, h.short, h.absolute, h.slash, h.steps, h.names⟩⟩

/-- Whether everything above an address is a directory. -/
def Open (tree : FileTree) (address : Address) : Prop :=
  ∀ front back, address = front ++ back → front ≠ [] → back ≠ [] →
    ∃ time, tree.at? front = some (.directory time)

theorem open_single (tree : FileTree) (name : String) : tree.Open [name] := by
  intro front back heq hfront hback
  cases front with
  | nil => exact absurd rfl hfront
  | cons first rest =>
    have hlength := congrArg List.length heq
    have hpos := List.length_pos_iff.2 hback
    simp only [List.length_append, List.length_cons, List.length_nil] at hlength
    omega

theorem Open.append {tree : FileTree} {outer : Address} (h : tree.Open outer)
    (hat : ∃ time, tree.at? outer = some (.directory time)) (name : String) :
    tree.Open (outer ++ [name]) := by
  intro front back heq hfront hback
  obtain ⟨more, rfl, hmore⟩ | ⟨more, hmore, hback'⟩ := List.append_eq_append_iff.1 heq
  · have hlength := congrArg List.length hmore
    have hpos := List.length_pos_iff.2 hback
    simp only [List.length_append, List.length_cons, List.length_nil] at hlength
    have hnil : more = [] := List.length_eq_zero_iff.1 (by omega)
    rwa [hnil, List.append_nil]
  · by_cases hnil : more = []
    · rw [hnil, List.append_nil] at hmore
      rwa [← hmore]
    · exact h front more hmore hfront hnil

section Spelling

variable {tree : FileTree} {p : Path} {outer : Address} {name : String}

theorem text_ne_empty_of_isAbsolute (h : p.isAbsolute = true) : ¬p.text = "" := by
  intro hempty
  unfold Path.isAbsolute at h
  rw [hempty] at h
  cases h

theorem locate_of_spells {address : Address} (h : Spells p address) (aim : Aim) :
    tree.locate aim p = tree.walk aim maxLinks [] false (address.map .name) := by
  unfold locate
  rw [if_neg (by rw [h.nul]; decide), if_neg (text_ne_empty_of_isAbsolute h.absolute),
    if_neg (Nat.not_lt.2 h.short), h.slash, h.steps, if_pos h.absolute]

/-- A walk leads through directories to what is left of its steps. -/
theorem walk_through (aim : Aim) (links : Nat) (slash : Bool) {here : Address} {rest : List Step} (hrest : rest ≠ [])
    (hnames : ∀ name ∈ outer, name.utf8ByteSize ≤ maxName)
    (hopen : ∀ front back, outer = front ++ back → front ≠ [] →
      ∃ time, tree.at? (here ++ front) = some (.directory time)) :
    tree.walk aim links here slash (outer.map .name ++ rest) = tree.walk aim links (here ++ outer) slash rest := by
  induction outer generalizing here with
  | nil => simp
  | cons first more ih =>
    obtain ⟨time, hat⟩ := hopen [first] more rfl (by simp)
    have hshort := hnames first List.mem_cons_self
    have hlast : (more.map Step.name ++ rest).isEmpty = false := by simp [hrest]
    rw [List.map_cons, List.cons_append, walk]
    simp only [hlast, Bool.false_and, Bool.false_eq_true, if_false, Nat.not_lt.2 hshort, hat]
    rw [ih (fun name hmem => hnames name (List.mem_cons_of_mem _ hmem)), List.append_assoc]
    · rfl
    · intro front back hfront hne
      have hat := hopen (first :: front) back (by rw [hfront]; rfl) (by simp)
      rwa [List.append_assoc]

/-- Everything above the last name of an open address is a directory. -/
theorem Open.directories (h : tree.Open (outer ++ [name])) :
    ∀ front back, outer = front ++ back → front ≠ [] → ∃ time, tree.at? ([] ++ front) = some (.directory time) :=
  fun front back houter hne => h front (back ++ [name]) (by rw [houter, List.append_assoc]) hne (by simp)

theorem locate_of_open (h : Spells p (outer ++ [name])) (hopen : tree.Open (outer ++ [name])) (aim : Aim) :
    tree.locate aim p = tree.walk aim maxLinks outer false [.name name] := by
  rw [locate_of_spells h, List.map_append, walk_through aim maxLinks false (by simp) _ hopen.directories]
  · rfl
  · exact fun name hmem => h.names name (List.mem_append_left _ hmem)

/-- Nothing is found behind a name that is not there. -/
theorem find_of_missing {rest : List Step} (hnul : p.text.toList.contains '\x00' = false)
    (hshort : p.text.utf8ByteSize ≤ maxPath) (habsolute : p.isAbsolute = true)
    (hsteps : Step.ofPath p = outer.map .name ++ .name name :: rest) (hrest : rest ≠ [])
    (hnames : ∀ other ∈ outer ++ [name], other.utf8ByteSize ≤ maxName) (hopen : tree.Open (outer ++ [name]))
    (hat : tree.at? (outer ++ [name]) = none) : tree.find p = .error .notFound := by
  have hname : ¬maxName < name.utf8ByteSize := Nat.not_lt.2 (hnames name (by simp))
  have hlocate : tree.locate .use p = .error .notFound := by
    unfold locate
    rw [if_neg (by rw [hnul]; decide), if_neg (text_ne_empty_of_isAbsolute habsolute),
      if_neg (Nat.not_lt.2 hshort), hsteps, if_pos habsolute,
      walk_through .use maxLinks _ (by simp) (fun other hmem => hnames other (List.mem_append_left _ hmem))
        hopen.directories, List.nil_append, walk]
    simp [hname, hat, hrest]
  rw [find, hlocate]

/-- A path that spells an address leads to what is there. -/
theorem find_of_spells (h : Spells p (outer ++ [name])) (hopen : tree.Open (outer ++ [name])) {entry : Entry}
    (hat : tree.at? (outer ++ [name]) = some entry) (hentry : entry.changed? ≠ none) :
    tree.find p = .ok (outer ++ [name], entry) := by
  have hshort := h.names name (by simp)
  rw [find_eq_ok_iff, locate_of_open h hopen, walk]
  simp only [Nat.not_lt.2 hshort, hat]
  cases entry with
  | directory time => simp [walk, hat]
  | file content time => simp
  | link target => exact absurd rfl hentry

theorem find_of_spells_none (h : Spells p (outer ++ [name])) (hopen : tree.Open (outer ++ [name]))
    (hat : tree.at? (outer ++ [name]) = none) : tree.find p = .error .notFound := by
  have hshort := h.names name (by simp)
  have hlocate : tree.locate .use p = .ok ⟨outer ++ [name], none⟩ := by
    rw [locate_of_open h hopen, walk]
    simp [Nat.not_lt.2 hshort, hat]
  rw [find, hlocate]

theorem isDirectory_of_spells (h : Spells p (outer ++ [name])) (hopen : tree.Open (outer ++ [name]))
    (hat : ∃ time, tree.at? (outer ++ [name]) = some (.directory time)) : tree.isDirectory p = true := by
  obtain ⟨time, hat⟩ := hat
  unfold isDirectory
  rw [find_of_spells h hopen hat nofun]
  rfl

theorem isFile_of_spells (h : Spells p (outer ++ [name])) (hopen : tree.Open (outer ++ [name]))
    (hat : ∃ content time, tree.at? (outer ++ [name]) = some (.file content time)) : tree.isFile p = true := by
  obtain ⟨content, time, hat⟩ := hat
  unfold isFile
  rw [find_of_spells h hopen hat nofun]
  rfl

theorem isFile_of_spells_none (h : Spells p (outer ++ [name])) (hopen : tree.Open (outer ++ [name]))
    (hat : tree.at? (outer ++ [name]) = none) : tree.isFile p = false := by
  unfold isFile
  rw [find_of_spells_none h hopen hat]

/-- A file can be written where there is one already, or nothing. -/
theorem exists_writeBytes (h : Spells p (outer ++ [name])) (hopen : tree.Open (outer ++ [name]))
    (hfree : ∀ entry, tree.at? (outer ++ [name]) = some entry → entry.isFile = true) (content : ByteArray) :
    ∃ after, tree.writeBytes p content = (after, .ok ()) ∧ Writes tree after (outer ++ [name]) content := by
  have hshort := h.names name (by simp)
  have hlocate : tree.locate .write p = .ok ⟨outer ++ [name], tree.at? (outer ++ [name])⟩ := by
    rw [locate_of_open h hopen, walk]
    cases hat : tree.at? (outer ++ [name]) with
    | none => simp [Nat.not_lt.2 hshort, hat]
    | some entry =>
      cases entry with
      | file old time => simp [Nat.not_lt.2 hshort, hat]
      | directory time => cases hfree _ hat
      | link target => cases hfree _ hat
  unfold writeBytes
  rw [hlocate]
  cases hat : tree.at? (outer ++ [name]) with
  | none => exact ⟨_, rfl, writes_add hat content⟩
  | some entry =>
    cases entry with
    | file old time => exact ⟨_, rfl, writes_set hat content _⟩
    | directory time => cases hfree _ hat
    | link target => cases hfree _ hat

end Spelling

end FileTree
end ModuleBundler
