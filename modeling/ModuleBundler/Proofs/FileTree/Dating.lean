import ModuleBundler.Cache.Persistent
import ModuleBundler.Proofs.FileTree.Writing
import ModuleBundler.Proofs.Source.Extent

/-!
# Trees as time goes on

A file that is written is given the time of its tree, which never runs backwards.
So nothing that was there when a tree was younger than its clock has changed later
without showing it.

Main results:

- Theorem {lit}`FileTree.Rewritten.follows`: what was written since then shows a later time.
- Theorem {lit}`FileTree.Settled.ordinary`: the times and texts of a small tree are ordinary.
-/

namespace ModuleBundler
namespace FileTree

/-! ## Later and earlier trees -/

/-- Whether a path whose time of last change is no later than in an earlier tree has the text that it had
there. -/
def Follows (later earlier : FileTree) : Prop :=
  ∀ p before after, earlier.changed? p = some before → later.changed? p = some after →
    after ≤ before → later.readText p = earlier.readText p

/-- Whether the times of a tree fit into the numbers that a cache keeps, and the texts into a memory. -/
structure Ordinary (tree : FileTree) : Prop where
  times : ∀ p time, tree.changed? p = some time → time < Cache.Persistent.timeLimit
  texts : ∀ p text, tree.readText p = .ok text → text.toList.length ≤ Source.maxLength

theorem find_of_readText {tree : FileTree} {p : Path} {text : String} (h : tree.readText p = .ok text) :
    ∃ address content time, tree.find p = .ok (address, .file content time) ∧
      String.fromUTF8? content = some text := by
  unfold readText at h
  cases hread : tree.readBytes p with
  | error fault => rw [hread] at h; cases h
  | ok content =>
    obtain ⟨address, time, hfind⟩ := find_of_readBytes hread
    refine ⟨address, content, time, hfind, ?_⟩
    rw [hread] at h
    simp only [bind, Except.bind] at h
    split at h
    · rename_i found htext
      cases h
      exact htext
    · cases h

theorem Follows.refl (tree : FileTree) : tree.Follows tree :=
  fun _ _ _ _ _ _ => rfl

/-! ## Times -/

/-- Whether nothing in a tree was changed after a time, and no file is larger than a memory. -/
structure Settled (tree : FileTree) (limit : Int) : Prop where
  times : ∀ address entry time, tree.at? address = some entry → entry.changed? = some time → time ≤ limit
  sizes : ∀ address content time, tree.at? address = some (.file content time) →
    content.size ≤ Source.maxLength

/-- What is at an address is the root directory or stands in the list of all entries. -/
theorem mem_of_at? {tree : FileTree} {address : Address} {entry : Entry} (h : tree.at? address = some entry) :
    entry = .directory 0 ∨ ∃ other, (other, entry) ∈ tree.entries := by
  unfold at? at h
  split at h
  · rename_i found hlookup
    cases h
    obtain ⟨front, back, hentries, -⟩ := List.lookup_eq_some_iff.1 hlookup
    exact .inr ⟨address, by rw [hentries]; simp⟩
  · split at h
    · cases h
      exact .inl rfl
    · cases h

/-- A tree is settled if all of its entries are. -/
theorem settled_of_entries {tree : FileTree} {limit : Int} (hlimit : 0 ≤ limit)
    (htimes : ∀ found ∈ tree.entries, ∀ time, found.2.changed? = some time → time ≤ limit)
    (hsizes : ∀ found ∈ tree.entries, ∀ content time, found.2 = .file content time →
      content.size ≤ Source.maxLength) : tree.Settled limit := by
  refine ⟨fun address entry time hat hchanged => ?_, fun address content time hat => ?_⟩
  · obtain rfl | ⟨other, hmem⟩ := mem_of_at? hat
    · cases hchanged
      exact hlimit
    · exact htimes _ hmem time hchanged
  · obtain heq | ⟨other, hmem⟩ := mem_of_at? hat
    · cases heq
    · exact hsizes _ hmem content time rfl

section Settled

variable {tree after : FileTree} {limit : Int}

theorem Settled.set (h : tree.Settled limit) {address : Address} {entry : Entry}
    (htime : ∀ time, entry.changed? = some time → time ≤ limit)
    (hsize : ∀ content time, entry = .file content time → content.size ≤ Source.maxLength) :
    (tree.set address entry).Settled limit := by
  refine ⟨fun other found time hat hchanged => ?_, fun other content time hat => ?_⟩
  · by_cases heq : other = address
    · rw [heq, at?_set_self] at hat
      cases hat
      exact htime time hchanged
    · rw [at?_set_of_ne _ heq] at hat
      exact h.times other found time hat hchanged
  · by_cases heq : other = address
    · rw [heq, at?_set_self] at hat
      cases hat
      exact hsize content time rfl
    · rw [at?_set_of_ne _ heq] at hat
      exact h.sizes other content time hat

theorem Settled.stir (h : tree.Settled limit) (hclock : tree.clock ≤ limit) (address : Address) :
    (tree.stir address).Settled limit := by
  unfold FileTree.stir
  split
  · have hset : (tree.set address (.directory tree.clock)).Settled limit :=
      h.set (fun time htime => by cases htime; exact hclock) fun _ _ heq => by cases heq
    exact ⟨hset.times, hset.sizes⟩
  · exact h

theorem clock_stir (tree : FileTree) (address : Address) :
    tree.clock ≤ (tree.stir address).clock ∧ (tree.stir address).clock ≤ tree.clock + 1 := by
  unfold stir
  split
  · exact ⟨Int.le_add_one (Int.le_refl _), Int.le_refl _⟩
  · exact ⟨Int.le_refl _, Int.le_add_one (Int.le_refl _)⟩

/-- Writing a file takes the clock on by one at most. -/
theorem clock_writeBytes {p : Path} {content : ByteArray} (h : tree.writeBytes p content = (after, .ok ())) :
    tree.clock ≤ after.clock ∧ after.clock ≤ tree.clock + 1 := by
  unfold writeBytes at h
  dsimp only at h
  split at h
  · cases h
    exact clock_stir _ _
  · cases h
    exact ⟨Int.le_add_one (Int.le_refl _), Int.le_refl _⟩
  · cases h
  · cases h

theorem Settled.writeBytes {later : Int} (h : tree.Settled limit) (hlater : limit ≤ later)
    (hclock : tree.clock ≤ later) {p : Path} {content : ByteArray}
    (hsize : content.size ≤ Source.maxLength) (hwrite : tree.writeBytes p content = (after, .ok ())) :
    after.Settled later := by
  have hset (address : Address) : (tree.set address (.file content tree.clock)).Settled later := by
    have hmono : tree.Settled later :=
      ⟨fun address entry time hat htime => Int.le_trans (h.times address entry time hat htime) hlater,
        h.sizes⟩
    refine hmono.set (fun time htime => ?_) fun other time heq => ?_
    · cases htime
      exact hclock
    · cases heq
      exact hsize
  unfold FileTree.writeBytes at hwrite
  dsimp only at hwrite
  split at hwrite
  · cases hwrite
    exact (hset _).stir hclock _
  · cases hwrite
    exact ⟨(hset _).times, (hset _).sizes⟩
  · cases hwrite
  · cases hwrite

theorem Settled.ordinary (h : tree.Settled limit) (hlimit : limit < Cache.Persistent.timeLimit) :
    tree.Ordinary where
  times p time htime := by
    unfold changed? at htime
    cases hfind : tree.find p with
    | error fault => rw [hfind] at htime; cases htime
    | ok found =>
      rw [hfind] at htime
      have hat : some found.2 = tree.at? found.1 := locate_entry (find_eq_ok_iff.1 hfind)
      exact Int.lt_of_le_of_lt (h.times found.1 found.2 time hat.symm htime) hlimit
  texts p text htext := by
    obtain ⟨address, content, time, hfind, htext⟩ := find_of_readText htext
    have hat : some (.file content time) = tree.at? address := locate_entry (find_eq_ok_iff.1 hfind)
    have hsize := h.sizes address content time hat.symm
    have hbytes := Utf8.size_of_fromUTF8? htext
    have hlength := length_le_utf8ByteSize text
    omega

end Settled

/-! ## Files that are written -/

/-- What may become of an entry when files are written from some time on: it stays, it is a directory
before and after, or it is a file that shows a time from then on. -/
def Renewed (start : Int) (entry other : Entry) : Prop :=
  other = entry ∨ (entry.isDirectory = true ∧ other.isDirectory = true) ∨
    ∃ content time, other = .file content time ∧ entry.isFile = true ∧ start ≤ time

/-- The trees that come about by writing files. -/
inductive Rewritten (start : FileTree) : FileTree → Prop
  | refl : start.Rewritten start
  | write {before after : FileTree} {p : Path} {content : ByteArray} (h : start.Rewritten before)
    (hwrite : before.writeBytes p content = (after, .ok ())) : start.Rewritten after

namespace Rewritten

variable {start tree : FileTree}

theorem clock (h : start.Rewritten tree) : start.clock ≤ tree.clock := by
  induction h with
  | refl => exact Int.le_refl _
  | write h hwrite ih => exact Int.le_trans ih (clock_writeBytes hwrite).1

/-- What a path leads to stays or is renewed. -/
theorem find (h : start.Rewritten tree) {p : Path} {address : Address} {entry : Entry}
    (hfind : start.find p = .ok (address, entry)) :
    ∃ other, tree.find p = .ok (address, other) ∧ Renewed start.clock entry other := by
  induction h with
  | refl => exact ⟨entry, hfind, .inl rfl⟩
  | @write before after q content h hwrite ih =>
    obtain ⟨middle, hmiddle, hrenewed⟩ := ih
    obtain ⟨target, hwrites, -⟩ := writes_writeBytes hwrite
    obtain ⟨other, hother, hafter⟩ := hwrites.keeps.find hmiddle
    have hbefore : some middle = before.at? address := locate_entry (find_eq_ok_iff.1 hmiddle)
    refine ⟨other, hother, ?_⟩
    by_cases htarget : address = target
    · subst htarget
      rw [hwrites.file] at hafter
      cases hafter
      have hfile : middle.isFile = true := hwrites.free middle hbefore.symm
      have hentry : entry.isFile = true := by
        obtain rfl | ⟨-, hdirectory⟩ | ⟨-, -, -, hentry, -⟩ := hrenewed
        · exact hfile
        · cases middle <;> simp [Entry.isFile, Entry.isDirectory] at hfile hdirectory
        · exact hentry
      exact .inr (.inr ⟨content, before.clock, rfl, hentry, h.clock⟩)
    · have hstays := hwrites.others address htarget
      rw [← hbefore, hafter] at hstays
      cases hstays with
      | same => exact hrenewed
      | directory time later =>
        obtain rfl | ⟨hentry, -⟩ | ⟨content, time, heq, -, -⟩ := hrenewed
        · exact .inr (.inl ⟨rfl, rfl⟩)
        · exact .inr (.inl ⟨hentry, rfl⟩)
        · cases heq

/-- What was written since a tree was younger than its clock shows a later time. -/
theorem follows (h : start.Rewritten tree) {limit : Int} (hstart : start.Settled limit)
    (hclock : limit < start.clock) : tree.Follows start := by
  intro p before after hbefore hafter hle
  unfold changed? at hbefore hafter
  unfold readText readBytes
  cases hfind : start.find p with
  | error fault => rw [hfind] at hbefore; cases hbefore
  | ok found =>
    obtain ⟨address, entry⟩ := found
    obtain ⟨other, hother, hrenewed⟩ := h.find hfind
    have hat : some entry = start.at? address := locate_entry (find_eq_ok_iff.1 hfind)
    rw [hfind] at hbefore
    rw [hother] at hafter ⊢
    have htime := hstart.times address entry before hat.symm hbefore
    obtain rfl | ⟨hentry, hlater⟩ | ⟨content, time, rfl, -, hnew⟩ := hrenewed
    · rfl
    · cases entry <;> simp [Entry.isDirectory] at hentry
      cases other <;> simp [Entry.isDirectory] at hlater
      rfl
    · cases hafter
      omega

end Rewritten

end FileTree
end ModuleBundler
