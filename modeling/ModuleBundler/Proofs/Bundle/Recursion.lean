import Mathlib.Logic.Function.Iterate
import ModuleBundler.Proofs.Bundle.Placement

/-!
# Layouts call by call

Placing an asset places what it imports, and moving an asset up moves what it imports, each
by calling itself.  A layout works off lists instead.  Here the calls are kept: a moment of a
layout knows every asset whose imports are being gone through, with the bundle that it was
placed in, and every asset whose imports are being asked to follow it.  A step goes one import
further, and it changes the home of one asset at most.

Moving assets places none.  So all assets that are being moved were reached from the asset
that is being placed last.

Main results:

- Theorem {lit}`Layout.Moment.exists_moved`: a move comes to its end, where all have moved that are to move.
- Theorem {lit}`Layout.Moment.exists_placed`: the imports of an asset are gone through to their end.
- Theorem {lit}`Layout.exists_finished`: step by step the finished layout is reached.
-/

namespace ModuleBundler
namespace Layout

/-- An asset that has been placed in a bundle, and those of its imports that have not been gone through. -/
structure Call where
  asset : AssetId
  bundle : BundleId
  links : List (Dependency × AssetId)

/-- Assets that are to move from one bundle up to another if they are in it. -/
structure Move where
  old : BundleId
  common : BundleId
  ids : List AssetId

/-- A layout on its way, with the calls that have not come to their end, the innermost ones first. -/
structure Moment where
  moves : List Move
  calls : List Call
  layout : Layout

namespace Moment

/-- Visit an asset.  If it is placed its imports are gone through next, and if it is to be shared it is moved
next. -/
def visit (outDir : Path) (visit : Visit) (moment : Moment) : Moment :=
  match moment.layout.graph.get? visit.asset with
  | none => moment
  | some asset =>
    let arrived := moment.layout.arrive visit
    match asset.home, visit.into with
    | some current, some into =>
      let common := arrived.tree.commonAncestor into current
      if current ≠ common ∧ arrived.tree.kindOf current = arrived.tree.kindOf common then
        { moment with moves := ⟨current, common, [visit.asset]⟩ :: moment.moves, layout := arrived }
      else { moment with layout := arrived }
    | some _, none => { moment with layout := arrived }
    | none, _ =>
      let (bundle, tree) := bundleFor arrived.tree outDir visit asset
      { moment with
        calls := ⟨visit.asset, bundle, asset.links⟩ :: moment.calls
        layout := enter ⟨arrived.graph, tree⟩ visit.asset asset bundle }

/-- The next moment: the innermost call goes one asset further, or it has come to its end. -/
def next (outDir : Path) : Moment → Moment
  | ⟨⟨_, _, []⟩ :: moves, calls, layout⟩ => ⟨moves, calls, layout⟩
  | ⟨⟨old, common, id :: ids⟩ :: moves, calls, layout⟩ =>
    ⟨⟨old, common, (layout.follow old common id).1⟩ :: ⟨old, common, ids⟩ :: moves, calls,
      (layout.follow old common id).2⟩
  | ⟨[], ⟨_, _, []⟩ :: calls, layout⟩ => ⟨[], calls, layout⟩
  | ⟨[], ⟨asset, bundle, link :: links⟩ :: calls, layout⟩ =>
    Moment.visit outDir ⟨link.2, some link.1, some bundle⟩ ⟨[], ⟨asset, bundle, links⟩ :: calls, layout⟩
  | ⟨[], [], layout⟩ => ⟨[], [], layout⟩

/-- The moment after some steps, beginning with the visit to the entry. -/
def after (graph : AssetGraph) (outDir : Path) (start : AssetId) (n : Nat) : Moment :=
  (next outDir)^[n] (Moment.visit outDir (Visit.ofEntry start) ⟨[], [], ⟨graph, .empty⟩⟩)

theorem after_succ (graph : AssetGraph) (outDir : Path) (start : AssetId) (n : Nat) :
    after graph outDir start (n + 1) = (after graph outDir start n).next outDir :=
  Function.iterate_succ_apply' _ _ _

/-! ## One visit -/

/-- A visit changes no place, or asks an asset to move, or places an asset.  The layout makes the same visit
at once. -/
theorem visit_cases (outDir : Path) (visit : Visit) (calls : List Call) (layout : Layout) :
    (∃ arrived, (arrived = layout ∨ arrived = layout.arrive visit) ∧
      layout.visit outDir visit = ([], arrived) ∧
        Moment.visit outDir visit ⟨[], calls, layout⟩ = ⟨[], calls, arrived⟩) ∨
    (∃ current into, layout.homeOf visit.asset = some current ∧ visit.into = some into ∧
      layout.tree.kindOf current = layout.tree.kindOf (layout.tree.commonAncestor into current) ∧
        ∃ hne : current ≠ layout.tree.commonAncestor into current,
          layout.visit outDir visit = ([], hoist current (layout.tree.commonAncestor into current) hne
            [visit.asset] (layout.arrive visit)) ∧
          Moment.visit outDir visit ⟨[], calls, layout⟩ =
            ⟨[⟨current, layout.tree.commonAncestor into current, [visit.asset]⟩], calls,
              layout.arrive visit⟩) ∨
    (∃ asset bundle tree, layout.graph.get? visit.asset = some asset ∧ asset.home = none ∧
      bundleFor layout.tree outDir visit asset = (bundle, tree) ∧
        layout.visit outDir visit =
          (asset.links.map fun link => ⟨link.2, some link.1, some bundle⟩,
            enter ⟨(layout.arrive visit).graph, tree⟩ visit.asset asset bundle) ∧
        Moment.visit outDir visit ⟨[], calls, layout⟩ =
          ⟨[], ⟨visit.asset, bundle, asset.links⟩ :: calls,
            enter ⟨(layout.arrive visit).graph, tree⟩ visit.asset asset bundle⟩) := by
  rcases Layout.visit_cases outDir visit layout with ⟨hnone, heq⟩ |
    ⟨asset, current, into, hget, hhome, hinto, heq⟩ | ⟨asset, current, hget, hhome, hinto, heq⟩ |
    ⟨asset, bundle, tree, hget, hhome, hbundle, heq⟩
  · refine .inl ⟨layout, .inl rfl, heq, ?_⟩
    simp only [Moment.visit, hnone]
  · rcases share_cases (layout.arrive visit) visit.asset into current with ⟨hsame, hstays⟩ | ⟨hne, hkind, hmoves⟩
    · refine .inl ⟨layout.arrive visit, .inr rfl, by rw [heq, hsame], ?_⟩
      have hnot : ¬ (current ≠ (layout.arrive visit).tree.commonAncestor into current ∧
          (layout.arrive visit).tree.kindOf current = (layout.arrive visit).tree.kindOf
            ((layout.arrive visit).tree.commonAncestor into current)) :=
        fun hboth => hstays.elim hboth.1 fun hkind => hkind hboth.2
      simp only [Moment.visit, hget, hhome, hinto, if_neg hnot]
    · refine .inr (.inl ⟨current, into, (homeOf_of_get? hget).trans hhome, hinto, ?_⟩)
      have hvisit : Moment.visit outDir visit ⟨[], calls, layout⟩ =
          ⟨[⟨current, (layout.arrive visit).tree.commonAncestor into current, [visit.asset]⟩], calls,
            layout.arrive visit⟩ := by
        simp only [Moment.visit, hget, hhome, hinto, if_pos (And.intro hne hkind)]
      simp only [tree_arrive] at hne hkind hmoves hvisit
      exact ⟨hkind, hne, by rw [heq, hmoves], hvisit⟩
  · refine .inl ⟨layout.arrive visit, .inr rfl, heq, ?_⟩
    simp only [Moment.visit, hget, hhome, hinto]
  · refine .inr (.inr ⟨asset, bundle, tree, hget, hhome, ?_, heq, ?_⟩)
    · rw [← tree_arrive layout visit]
      exact hbundle
    · simp only [Moment.visit, hget, hhome, hbundle]

/-! ## Coming to an end -/

/-- Whether some steps lead from one moment to another. -/
def Leads (outDir : Path) (a b : Moment) : Prop :=
  ∃ n, (next outDir)^[n] a = b

variable {outDir : Path} {a b c : Moment}

theorem Leads.refl (a : Moment) : Leads outDir a a :=
  ⟨0, rfl⟩

theorem Leads.trans (hab : Leads outDir a b) (hbc : Leads outDir b c) : Leads outDir a c := by
  obtain ⟨m, rfl⟩ := hab
  obtain ⟨n, rfl⟩ := hbc
  exact ⟨n + m, Function.iterate_add_apply _ n m a⟩

/-- What the next moment leads to. -/
theorem Leads.of_next (h : Leads outDir (a.next outDir) b) : Leads outDir a b := by
  obtain ⟨n, rfl⟩ := h
  exact ⟨n + 1, rfl⟩

end Moment

/-- Assets can be moved in two parts. -/
theorem hoist_append {old common : BundleId} (hne : old ≠ common) (ids more : List AssetId)
    (layout : Layout) :
    hoist old common hne (ids ++ more) layout = hoist old common hne more (hoist old common hne ids layout) := by
  fun_induction hoist old common hne ids layout with
  | case1 layout => rfl
  | case2 id rest layout ih =>
    rw [List.cons_append, hoist, ← List.append_assoc, ih]

theorem settled_hoist_le {old common : BundleId} (hne : old ≠ common) (ids : List AssetId) (layout : Layout) :
    (hoist old common hne ids layout).settled old ≤ layout.settled old := by
  fun_induction hoist old common hne ids layout with
  | case1 layout => exact Nat.le_refl _
  | case2 id rest layout ih =>
    rcases settled_follow hne id layout with hlt | heq
    · exact Nat.le_trans ih (Nat.le_of_lt hlt)
    · rw [heq] at ih
      rw [heq]
      exact ih

/-- Assets can be placed in two parts. -/
theorem place_append (outDir : Path) (visits more : List Visit) (layout : Layout) :
    place outDir (visits ++ more) layout = place outDir more (place outDir visits layout) := by
  fun_induction place outDir visits layout with
  | case1 layout => rfl
  | case2 visit rest layout ih =>
    rw [List.cons_append, place, ← List.append_assoc, ih]

theorem unplaced_visit_le (outDir : Path) (visit : Visit) (layout : Layout) :
    (layout.visit outDir visit).2.unplaced ≤ layout.unplaced := by
  rcases unplaced_visit outDir visit layout with hlt | ⟨-, heq⟩
  · exact Nat.le_of_lt hlt
  · exact Nat.le_of_eq heq

theorem unplaced_place_le (outDir : Path) (visits : List Visit) (layout : Layout) :
    (place outDir visits layout).unplaced ≤ layout.unplaced := by
  fun_induction place outDir visits layout with
  | case1 layout => exact Nat.le_refl _
  | case2 visit rest layout ih => exact Nat.le_trans ih (unplaced_visit_le outDir visit layout)

namespace Moment

/-- A move comes to its end, where all have moved that are to move. -/
theorem exists_moved (outDir : Path) {old common : BundleId} (hne : old ≠ common) (ids : List AssetId)
    (moves : List Move) (calls : List Call) (layout : Layout) :
    Leads outDir ⟨⟨old, common, ids⟩ :: moves, calls, layout⟩
      ⟨moves, calls, hoist old common hne ids layout⟩ := by
  match ids with
  | [] =>
    rw [hoist]
    exact .of_next (.refl _)
  | id :: rest =>
    rw [hoist, hoist_append]
    exact .of_next (.trans (exists_moved outDir hne _ _ _ _) (exists_moved outDir hne _ _ _ _))
termination_by (layout.settled old, ids.length)
decreasing_by
  -- the imports of an asset that has moved: fewer assets are left in the bundle
  · rcases settled_follow hne id layout with hlt | heq
    · exact Prod.Lex.left _ _ hlt
    · rw [heq]
      exact Prod.Lex.right _ (Nat.succ_pos _)
  -- the rest of the list: no more assets are left in the bundle, and the list is shorter
  · rcases settled_follow hne id layout with hlt | heq
    · exact Prod.Lex.left _ _ (Nat.lt_of_le_of_lt (settled_hoist_le hne _ _) hlt)
    · rw [heq, hoist]
      exact Prod.Lex.right _ (Nat.lt_succ_self _)

/-- The imports of an asset are gone through to their end, where they are placed as in a layout. -/
theorem exists_placed (outDir : Path) (asset : AssetId) (bundle : BundleId)
    (links : List (Dependency × AssetId)) (calls : List Call) (layout : Layout) :
    Leads outDir ⟨[], ⟨asset, bundle, links⟩ :: calls, layout⟩
      ⟨[], calls, place outDir (links.map fun link => ⟨link.2, some link.1, some bundle⟩) layout⟩ := by
  match links with
  | [] =>
    rw [List.map_nil, place]
    exact .of_next (.refl _)
  | link :: rest =>
    have hstep := unplaced_visit outDir ⟨link.2, some link.1, some bundle⟩ layout
    have hle := unplaced_visit_le outDir ⟨link.2, some link.1, some bundle⟩ layout
    rw [List.map_cons, place, place_append]
    refine .of_next ?_
    show Leads outDir (Moment.visit outDir ⟨link.2, some link.1, some bundle⟩
      ⟨[], ⟨asset, bundle, rest⟩ :: calls, layout⟩) _
    rcases visit_cases outDir ⟨link.2, some link.1, some bundle⟩ (⟨asset, bundle, rest⟩ :: calls) layout with
      ⟨arrived, -, heq, hvisit⟩ | ⟨current, into, -, -, -, hne, heq, hvisit⟩ |
      ⟨found, fresh, tree, -, -, -, heq, hvisit⟩
    · rw [hvisit, heq, place]
      exact exists_placed outDir asset bundle rest calls arrived
    · rw [hvisit, heq, place]
      exact .trans (exists_moved outDir hne _ _ _ _) (exists_placed outDir asset bundle rest calls _)
    · rw [hvisit, heq]
      exact .trans (exists_placed outDir _ _ _ _ _) (exists_placed outDir asset bundle rest calls _)
termination_by (layout.unplaced, links.length)
decreasing_by
  · rw [heq] at hle
    exact Prod.Lex.right' _ hle (Nat.lt_succ_self _)
  · rw [heq] at hle
    exact Prod.Lex.right' _ hle (Nat.lt_succ_self _)
  -- the imports of an asset that has been placed: fewer assets are without a place
  · rw [heq] at hstep
    rcases hstep with hlt | ⟨hnil, hsame⟩
    · exact Prod.Lex.left _ _ hlt
    · rw [List.map_eq_nil_iff.1 hnil]
      exact Prod.Lex.right' _ (Nat.le_of_eq hsame) (Nat.succ_pos _)
  · rw [heq] at hle
    exact Prod.Lex.right' _ (Nat.le_trans (unplaced_place_le _ _ _) hle) (Nat.lt_succ_self _)

end Moment

/-- Step by step the finished layout is reached. -/
theorem exists_finished (graph : AssetGraph) (outDir : Path) (start : AssetId) :
    ∃ n, Moment.after graph outDir start n = ⟨[], [], ofGraph graph outDir start⟩ := by
  show Moment.Leads outDir (Moment.visit outDir (Visit.ofEntry start) ⟨[], [], ⟨graph, .empty⟩⟩) _
  unfold ofGraph
  rw [place, List.append_nil]
  show Moment.Leads outDir _ ⟨[], [], place outDir (Layout.visit outDir (Visit.ofEntry start) _).1
    (Layout.visit outDir (Visit.ofEntry start) _).2⟩
  rcases Moment.visit_cases outDir (Visit.ofEntry start) [] ⟨graph, .empty⟩ with ⟨arrived, -, heq, hvisit⟩ |
    ⟨current, into, -, hinto, -⟩ | ⟨asset, bundle, tree, -, -, -, heq, hvisit⟩
  · rw [hvisit, heq, place]
    exact .refl _
  · cases hinto
  · rw [hvisit, heq]
    exact Moment.exists_placed outDir _ _ _ _ _

end Layout
end ModuleBundler
