import Mathlib.Data.Nat.Init
import ModuleBundler.Proofs.Bundle.Recursion

/-!
# Assets move up

Once an asset has a place it can only move up, each time to a bundle above the one that it
leaves.  While the imports of an asset are gone through, all calls are nested: the bundle of
an outer call is, or lies above, that of an inner one.  An asset that is reached from the
innermost bundle leaves its own bundle only for one above both, so that it was not in the
bundle of any call.  Hence whoever is still going through its imports is not moved.

Main results:

- Theorem {lit}`Layout.Moment.Orderly.next`: calls stay nested and know where their assets are.
- Theorem {lit}`Layout.moves_up`: what moves when, and that it comes to an end.
-/

namespace ModuleBundler
namespace Layout

open BundleTree

namespace Moment

/-! ## What holds at every moment -/

/-- What is known of assets that are to move: they go from one primary bundle up to another one of the same
kind, and no asset whose imports are being gone through is in the bundle that they leave. -/
structure Allows (tree : BundleTree) (calls : List Call) (move : Move) : Prop where
  old : tree.IsPrimary move.old
  common : tree.IsPrimary move.common
  kind : tree.kindOf move.old = tree.kindOf move.common
  leaves : move.old ≠ move.common
  above : move.common ∈ tree.chain move.old
  spares : ∀ call ∈ calls, call.bundle ≠ move.old

/-- Whether a layout on its way is in order. -/
structure Orderly (moment : Moment) : Prop where
  sound : moment.layout.Sound
  /-- An asset whose imports are being gone through is where it was placed. -/
  captured : ∀ call ∈ moment.calls, moment.layout.homeOf call.asset = some call.bundle
  nested : moment.calls.Pairwise fun inner outer =>
    outer.bundle ∈ moment.layout.tree.chain inner.bundle
  allowed : ∀ move ∈ moment.moves, Allows moment.layout.tree moment.calls move
  /-- All assets that are moved at one time go the same way. -/
  together : ∀ first ∈ moment.moves, ∀ second ∈ moment.moves,
    first.old = second.old ∧ first.common = second.common

/-- Moves stay allowed while the tree grows. -/
theorem Allows.grow {before after : BundleTree} {calls : List Call} {move : Move}
    (h : Allows before calls move) (hwf : before.WellFormed) (hgrows : before.Extends after) :
    Allows after calls move where
  old := hgrows.isPrimary h.old
  common := hgrows.isPrimary h.common
  kind := by
    rw [hgrows.kindOf_of_isPrimary h.old, hgrows.kindOf_of_isPrimary h.common]
    exact h.kind
  leaves := h.leaves
  above := by
    rw [hgrows.chain_of_isPrimary hwf h.old]
    exact h.above
  spares := h.spares

theorem Orderly.isPrimary {moment : Moment} (h : moment.Orderly) {call : Call} (hmem : call ∈ moment.calls) :
    moment.layout.tree.IsPrimary call.bundle :=
  h.sound.isPrimary_homeOf (h.captured call hmem)

/-- Calls stay nested while the tree grows. -/
theorem Orderly.nested_grow {moment : Moment} (h : moment.Orderly) {tree : BundleTree}
    (hgrows : moment.layout.tree.Extends tree) :
    moment.calls.Pairwise fun inner outer => outer.bundle ∈ tree.chain inner.bundle := by
  refine h.nested.imp_of_mem fun {inner outer} hinner _ habove => ?_
  rw [hgrows.chain_of_isPrimary h.sound.tree (h.isPrimary hinner)]
  exact habove

/-- A moment stays in order if the layout grows and the assets of its calls stay where they are. -/
theorem Orderly.grow {moment : Moment} (h : moment.Orderly) {layout : Layout} (hsound : layout.Sound)
    (hgrows : moment.layout.tree.Extends layout.tree)
    (hstays : ∀ call ∈ moment.calls, layout.homeOf call.asset = some call.bundle) :
    Orderly { moment with layout } where
  sound := hsound
  captured := hstays
  nested := h.nested_grow hgrows
  allowed move hmem := (h.allowed move hmem).grow h.sound.tree hgrows
  together := h.together

/-- A moment stays in order without its innermost call. -/
theorem Orderly.return {call : Call} {calls : List Call} {layout : Layout}
    (h : Orderly ⟨[], call :: calls, layout⟩) : Orderly ⟨[], calls, layout⟩ where
  sound := h.sound
  captured other hmem := h.captured other (List.mem_cons_of_mem _ hmem)
  nested := (List.pairwise_cons.1 h.nested).2
  allowed := nofun
  together := nofun

/-! ## Moving -/

/-- What one step of a move does. -/
theorem Orderly.follow_hoisted {move : Move} {moves : List Move} {calls : List Call} {layout : Layout}
    (h : Orderly ⟨move :: moves, calls, layout⟩) (id : AssetId) :
    Hoisted move.old move.common layout (layout.follow move.old move.common id).2 := by
  have hallows := h.allowed move List.mem_cons_self
  exact Layout.follow_hoisted h.sound hallows.common hallows.kind id

/-- A step of a move leaves calls alone. -/
theorem Orderly.follow {old common : BundleId} {id : AssetId} {ids : List AssetId} {moves : List Move}
    {calls : List Call} {layout : Layout} (h : Orderly ⟨⟨old, common, id :: ids⟩ :: moves, calls, layout⟩) :
    Orderly ⟨⟨old, common, (layout.follow old common id).1⟩ :: ⟨old, common, ids⟩ :: moves, calls,
      (layout.follow old common id).2⟩ := by
  have hstep := h.follow_hoisted id
  have hallows := h.allowed _ List.mem_cons_self
  have hgrown := h.grow hstep.sound hstep.grows fun call hmem => by
    have hhome := h.captured call hmem
    rcases hstep.homes call.asset with heq | ⟨hold, -⟩
    · exact heq.trans hhome
    · exact absurd (Option.some.inj (hhome.symm.trans hold)) (hallows.spares call hmem)
  -- the new list goes the way of the old one
  have hway : ∀ ids, Allows (layout.follow old common id).2.tree calls ⟨old, common, ids⟩ := fun _ =>
    have hmoved := hgrown.allowed _ List.mem_cons_self
    ⟨hmoved.old, hmoved.common, hmoved.kind, hmoved.leaves, hmoved.above, hmoved.spares⟩
  have hsame : ∀ move ∈ (⟨old, common, (layout.follow old common id).1⟩ : Move) :: ⟨old, common, ids⟩ :: moves,
      move.old = old ∧ move.common = common := by
    intro move hmem
    rcases List.mem_cons.1 hmem with rfl | hmem
    · exact ⟨rfl, rfl⟩
    · rcases List.mem_cons.1 hmem with rfl | hmem
      · exact ⟨rfl, rfl⟩
      · exact h.together _ (List.mem_cons_of_mem _ hmem) _ List.mem_cons_self
  refine ⟨hgrown.sound, hgrown.captured, hgrown.nested, fun move hmem => ?_, fun first hfirst second hsecond => ?_⟩
  · obtain ⟨from', to', ids'⟩ := move
    obtain ⟨rfl, rfl⟩ := hsame _ hmem
    exact hway ids'
  · obtain ⟨hold, hcommon⟩ := hsame first hfirst
    obtain ⟨hold', hcommon'⟩ := hsame second hsecond
    exact ⟨hold.trans hold'.symm, hcommon.trans hcommon'.symm⟩

/-! ## Visiting -/

/-- A visit from the bundle of the innermost call, or from below it. -/
theorem Orderly.visit (outDir : Path) {visit : Visit} {calls : List Call} {layout : Layout}
    (h : Orderly ⟨[], calls, layout⟩) (hfits : visit.Fits layout.tree)
    (hinner : ∀ call ∈ calls, ∃ into, visit.into = some into ∧ call.bundle ∈ layout.tree.chain into) :
    (Moment.visit outDir visit ⟨[], calls, layout⟩).Orderly := by
  have harrived : Orderly ⟨[], calls, layout.arrive visit⟩ := by
    refine h.grow (h.sound.arrive visit) ?_ fun call hmem => ?_
    · rw [tree_arrive]
      exact .refl _
    · rw [homeOf_arrive]
      exact h.captured call hmem
  rcases visit_cases outDir visit calls layout with ⟨arrived, hsame, -, heq⟩ |
    ⟨current, into, hhome, hinto, hkind, hne, -, heq⟩ | ⟨asset, bundle, tree, hget, hhome, hbundle, -, heq⟩
  · rw [heq]
    rcases hsame with rfl | rfl
    · exact h
    · exact harrived
  · rw [heq]
    have hcurrent := h.sound.isPrimary_homeOf hhome
    have hprimary := hfits.into hinto
    -- a call in the bundle of the asset would make that bundle the common ancestor
    have hspares : ∀ call ∈ calls, call.bundle ≠ current := by
      rintro call hmem rfl
      obtain ⟨into', hinto', habove⟩ := hinner call hmem
      obtain rfl : into' = into := Option.some.inj (hinto'.symm.trans hinto)
      exact hne (commonAncestor_of_mem_chain habove).symm
    have hallows : Allows (layout.arrive visit).tree calls
        ⟨current, layout.tree.commonAncestor into current, [visit.asset]⟩ := by
      rw [tree_arrive]
      exact ⟨hcurrent, isPrimary_commonAncestor h.sound.tree hprimary hcurrent, hkind, hne,
        (commonAncestor_above h.sound.tree hprimary hcurrent).2, hspares⟩
    refine ⟨harrived.sound, harrived.captured, harrived.nested, fun move hmem => ?_,
      fun first hfirst second hsecond => ?_⟩
    · rw [List.mem_singleton.1 hmem]
      exact hallows
    · rw [List.mem_singleton.1 hfirst, List.mem_singleton.1 hsecond]
      exact ⟨rfl, rfl⟩
  · rw [heq]
    have henters := enter_enters h.sound hfits hget hhome hbundle
    have hgrown := h.grow henters.sound henters.grows fun call hmem => (henters.keeps (h.captured call hmem)).2
    refine ⟨hgrown.sound, fun call hmem => ?_, List.pairwise_cons.2 ⟨fun outer hmem => ?_, hgrown.nested⟩, nofun, nofun⟩
    · rcases List.mem_cons.1 hmem with rfl | hmem
      · exact henters.home
      · exact hgrown.captured call hmem
    · obtain ⟨into, hinto, habove⟩ := hinner outer hmem
      rw [← henters.grows.chain_of_isPrimary h.sound.tree (hfits.into hinto)] at habove
      exact mem_chain_trans (henters.below hinto) habove

/-- The next visit of a call comes from its bundle. -/
theorem Orderly.fits {asset : AssetId} {bundle : BundleId} {links : List (Dependency × AssetId)}
    {calls : List Call} {layout : Layout} (h : Orderly ⟨[], ⟨asset, bundle, links⟩ :: calls, layout⟩)
    (link : Dependency × AssetId) : Visit.Fits ⟨link.2, some link.1, some bundle⟩ layout.tree where
  into hinto := by
    cases hinto
    exact h.isPrimary List.mem_cons_self
  root := nofun

/-- Calls stay nested, and they know where their assets are. -/
theorem Orderly.next (outDir : Path) {moment : Moment} (h : moment.Orderly) :
    (moment.next outDir).Orderly := by
  obtain ⟨moves, calls, layout⟩ := moment
  match moves, calls with
  | ⟨old, common, []⟩ :: moves, calls =>
    exact ⟨h.sound, h.captured, h.nested, fun move hmem => h.allowed move (List.mem_cons_of_mem _ hmem),
      fun first hfirst second hsecond =>
        h.together first (List.mem_cons_of_mem _ hfirst) second (List.mem_cons_of_mem _ hsecond)⟩
  | ⟨old, common, id :: ids⟩ :: moves, calls => exact h.follow
  | [], ⟨asset, bundle, []⟩ :: calls => exact h.return
  | [], ⟨asset, bundle, link :: links⟩ :: calls =>
    have hshorter : Orderly ⟨[], ⟨asset, bundle, links⟩ :: calls, layout⟩ :=
      ⟨h.sound, fun call hmem => by
        rcases List.mem_cons.1 hmem with rfl | hmem
        · exact h.captured ⟨asset, bundle, link :: links⟩ List.mem_cons_self
        · exact h.captured call (List.mem_cons_of_mem _ hmem),
        List.pairwise_cons.2 (List.pairwise_cons.1 h.nested), nofun, nofun⟩
    refine hshorter.visit outDir (h.fits link) fun call hmem => ⟨bundle, rfl, ?_⟩
    rcases List.mem_cons.1 hmem with rfl | hmem
    · exact mem_chain_self _ _
    · exact (List.pairwise_cons.1 h.nested).1 call hmem
  | [], [] => exact h

/-- Every moment of a layout is in order. -/
theorem orderly_after (graph : AssetGraph) (outDir : Path) (start : AssetId) (n : Nat) :
    (after (graph.updateAll Asset.withoutPlace) outDir start n).Orderly := by
  induction n with
  | zero =>
    have hempty : Orderly ⟨[], [], ⟨graph.updateAll Asset.withoutPlace, .empty⟩⟩ :=
      ⟨sound_start graph, nofun, .nil, nofun, nofun⟩
    exact hempty.visit outDir (fits_ofEntry start) nofun
  | succ n ih =>
    rw [after_succ]
    exact ih.next outDir

/-! ## Who moves when -/

/-- Whether the next step moves an asset that has a place. -/
def Moves (outDir : Path) (moment : Moment) (id : AssetId) : Prop :=
  ∃ home home', moment.layout.homeOf id = some home ∧
    (moment.next outDir).layout.homeOf id = some home' ∧ home' ≠ home

/-- An asset with a place stays there in the next step, or it is moved. -/
theorem Orderly.homeOf_next {moment : Moment} (h : moment.Orderly) (outDir : Path) {id : AssetId}
    {home : BundleId} (hhome : moment.layout.homeOf id = some home) :
    (moment.next outDir).layout.homeOf id = some home ∨
      ∃ move ∈ moment.moves, home = move.old ∧
        (moment.next outDir).layout.homeOf id = some move.common := by
  obtain ⟨moves, calls, layout⟩ := moment
  match moves, calls with
  | ⟨_, _, []⟩ :: _, _ => exact .inl hhome
  | ⟨old, common, asset :: ids⟩ :: moves, calls =>
    rcases (h.follow_hoisted asset).homes id with heq | ⟨hold, hcommon⟩
    · exact .inl (heq.trans hhome)
    · exact .inr ⟨_, List.mem_cons_self, Option.some.inj (hhome.symm.trans hold), hcommon⟩
  | [], ⟨_, _, []⟩ :: _ => exact .inl hhome
  | [], ⟨asset, bundle, link :: links⟩ :: calls =>
    refine .inl ?_
    show (Moment.visit outDir ⟨link.2, some link.1, some bundle⟩
      ⟨[], ⟨asset, bundle, links⟩ :: calls, layout⟩).layout.homeOf id = some home
    rcases visit_cases outDir ⟨link.2, some link.1, some bundle⟩ (⟨asset, bundle, links⟩ :: calls) layout with
      ⟨arrived, hsame, -, heq⟩ | ⟨current, into, -, -, -, hne, -, heq⟩ |
      ⟨found, fresh, tree, hget, hnone, hbundle, -, heq⟩
    · rw [heq]
      rcases hsame with rfl | rfl
      · exact hhome
      · exact (homeOf_arrive _ _ id).trans hhome
    · rw [heq]
      exact (homeOf_arrive _ _ id).trans hhome
    · rw [heq]
      exact ((enter_enters h.sound (h.fits link) hget hnone hbundle).keeps hhome).2
  | [], [] => exact .inl hhome

/-- Whoever moves goes the way of a move. -/
theorem Orderly.exists_move {moment : Moment} (h : moment.Orderly) {outDir : Path} {id : AssetId}
    (hmoves : moment.Moves outDir id) : ∃ move ∈ moment.moves,
      moment.layout.homeOf id = some move.old ∧ (moment.next outDir).layout.homeOf id = some move.common := by
  obtain ⟨home, home', hhome, hhome', hne⟩ := hmoves
  rcases h.homeOf_next outDir hhome with hstays | ⟨move, hmem, rfl, hcommon⟩
  · exact absurd (Option.some.inj (hhome'.symm.trans hstays)) hne
  · exact ⟨move, hmem, hhome, hcommon⟩

/-- While assets are moved, those that come to be moved leave the same bundle. -/
theorem old_of_mem_next {outDir : Path} {moment : Moment} {old : BundleId} (hne : moment.moves ≠ [])
    (hold : ∀ move ∈ moment.moves, move.old = old) :
    ∀ move ∈ (moment.next outDir).moves, move.old = old := by
  obtain ⟨moves, calls, layout⟩ := moment
  match moves with
  | [] => exact absurd rfl hne
  | ⟨_, _, []⟩ :: moves => exact fun move hmem => hold move (List.mem_cons_of_mem _ hmem)
  | ⟨from', to', id :: ids⟩ :: moves =>
    have hfrom : from' = old := hold ⟨from', to', id :: ids⟩ List.mem_cons_self
    intro move hmem
    rcases List.mem_cons.1 hmem with rfl | hmem
    · exact hfrom
    · rcases List.mem_cons.1 hmem with rfl | hmem
      · exact hfrom
      · exact hold move (List.mem_cons_of_mem _ hmem)

/-- Whoever has moved does not move again before all that move at that time have moved. -/
theorem not_moves_again (graph : AssetGraph) (outDir : Path) (start : AssetId) {i j : Nat} {id : AssetId}
    (hlt : i < j)
    (hmoving : ∀ k, i ≤ k → k ≤ j → (after (graph.updateAll Asset.withoutPlace) outDir start k).moves ≠ [])
    (hmoves : (after (graph.updateAll Asset.withoutPlace) outDir start i).Moves outDir id) :
    ¬ (after (graph.updateAll Asset.withoutPlace) outDir start j).Moves outDir id := by
  have horderly := orderly_after graph outDir start
  generalize hat : after (graph.updateAll Asset.withoutPlace) outDir start = moments at hmoving hmoves horderly ⊢
  have hsucc : ∀ n, moments (n + 1) = (moments n).next outDir := fun n => hat ▸ after_succ _ _ _ _
  obtain ⟨move, hmem, hold, hcommon⟩ := (horderly i).exists_move hmoves
  have hleaves := ((horderly i).allowed move hmem).leaves
  -- from now on everybody leaves that bundle, and the asset is not there
  have hgone : ∀ k, i < k → k ≤ j → (∀ other ∈ (moments k).moves, other.old = move.old) ∧
      ∃ home, (moments k).layout.homeOf id = some home ∧ home ≠ move.old := by
    intro k hik
    induction k, hik using Nat.le_induction with
    | base =>
      intro hij
      rw [hsucc]
      refine ⟨old_of_mem_next (hmoving i (Nat.le_refl i) (Nat.le_of_lt hlt)) fun other hother =>
        ((horderly i).together other hother move hmem).1, move.common, hcommon, hleaves.symm⟩
    | succ k hk ih =>
      intro hkj
      obtain ⟨hway, home, hhome, hne⟩ := ih (Nat.le_of_succ_le hkj)
      rw [hsucc]
      refine ⟨old_of_mem_next (hmoving k (Nat.le_of_lt hk) (Nat.le_of_succ_le hkj)) hway, ?_⟩
      rcases (horderly k).homeOf_next outDir hhome with hstays | ⟨other, hother, rfl, -⟩
      · exact ⟨home, hstays, hne⟩
      · exact absurd (hway other hother) hne
  intro hagain
  obtain ⟨hway, home, hhome, hne⟩ := hgone j hlt (Nat.le_refl j)
  obtain ⟨other, hother, hback, -⟩ := (horderly j).exists_move hagain
  exact hne ((Option.some.inj (hhome.symm.trans hback)).trans (hway other hother))

end Moment

/-- Assets only move up, at one time each only once, and none of whose imports are still being gone through; and
in the end the layout is finished. -/
theorem moves_up (graph : AssetGraph) (outDir : Path) (start : AssetId) :
    (∀ n id home,
      (Moment.after (graph.updateAll Asset.withoutPlace) outDir start n).layout.homeOf id = some home →
        ∃ home', (Moment.after (graph.updateAll Asset.withoutPlace) outDir start (n + 1)).layout.homeOf id =
            some home' ∧
          (home' = home ∨ home' ≠ home ∧
            home' ∈ (Moment.after (graph.updateAll Asset.withoutPlace) outDir start n).layout.tree.chain
              home)) ∧
    (∀ i j id, i < j →
      (∀ k, i ≤ k → k ≤ j →
        (Moment.after (graph.updateAll Asset.withoutPlace) outDir start k).moves ≠ []) →
      (Moment.after (graph.updateAll Asset.withoutPlace) outDir start i).Moves outDir id →
        ¬ (Moment.after (graph.updateAll Asset.withoutPlace) outDir start j).Moves outDir id) ∧
    (∀ n, ∀ call ∈ (Moment.after (graph.updateAll Asset.withoutPlace) outDir start n).calls,
      (Moment.after (graph.updateAll Asset.withoutPlace) outDir start n).layout.homeOf call.asset =
          some call.bundle ∧
        ¬ (Moment.after (graph.updateAll Asset.withoutPlace) outDir start n).Moves outDir call.asset) ∧
    ∃ n, Moment.after (graph.updateAll Asset.withoutPlace) outDir start n =
      ⟨[], [], ofGraph (graph.updateAll Asset.withoutPlace) outDir start⟩ := by
  have horderly := Moment.orderly_after graph outDir start
  refine ⟨fun n id home hhome => ?_, fun i j id hlt hmoving hmoves => ?_, fun n call hmem => ⟨?_, fun hmoves => ?_⟩,
    exists_finished _ outDir start⟩
  · rw [Moment.after_succ]
    rcases (horderly n).homeOf_next outDir hhome with hstays | ⟨move, hmem, rfl, hcommon⟩
    · exact ⟨home, hstays, .inl rfl⟩
    · have hallows := (horderly n).allowed move hmem
      exact ⟨move.common, hcommon, .inr ⟨hallows.leaves.symm, hallows.above⟩⟩
  · exact Moment.not_moves_again graph outDir start hlt hmoving hmoves
  · exact (horderly n).captured call hmem
  · obtain ⟨move, hmove, hold, -⟩ := (horderly n).exists_move hmoves
    have hcaptured := (horderly n).captured call hmem
    exact ((horderly n).allowed move hmove).spares call hmem (Option.some.inj (hcaptured.symm.trans hold))

end Layout
end ModuleBundler
