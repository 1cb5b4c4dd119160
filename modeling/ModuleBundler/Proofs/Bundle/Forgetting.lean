import ModuleBundler.Proofs.Bundle.Repetition

/-!
# Old places are forgotten

A layout of a graph whose assets have been placed before takes their places away first.
So the places from before have no part in it, and nothing about the assets changes but
their places: the graph of the layout is the graph that was laid out, with new places.

Main results:

- Theorem {lit}`AssetGraph.SameContent.eq_withPlaces`: graphs of the same size with the same content
  differ in the places of their assets only.
- Theorem {lit}`Layout.anew_withPlaces`: where the assets were before has no part in a layout.
- Theorem {lit}`Layout.anew_forgets`: a layout changes nothing but places, and does so in the same way
  whatever the places were.
-/

namespace ModuleBundler

/-! ## Places -/

/-- Where an asset is in a layout, and what has led to it. -/
structure Place where
  home : Option BundleId := none
  bundles : List BundleId := []
  incoming : List Dependency := []
deriving DecidableEq, Repr

namespace Asset

/-- The place of an asset. -/
def place (asset : Asset) : Place :=
  ⟨asset.home, asset.bundles, asset.incoming⟩

/-- The asset at a place. -/
def withPlace (asset : Asset) (place : Place) : Asset :=
  { asset with home := place.home, bundles := place.bundles, incoming := place.incoming }

/-- No place is left of one that is taken away. -/
@[simp]
theorem withoutPlace_withPlace (asset : Asset) (place : Place) :
    (asset.withPlace place).withoutPlace = asset.withoutPlace := rfl

/-- Assets with the same content differ in their places only. -/
theorem eq_withPlace_of_withoutPlace {old new : Asset} (h : new.withoutPlace = old.withoutPlace) :
    new = old.withPlace new.place := by
  have hput : new.withoutPlace.withPlace new.place = old.withoutPlace.withPlace new.place := by rw [h]
  exact hput

end Asset

namespace AssetGraph

/-- The place of the asset with an id. -/
def placeOf (graph : AssetGraph) (id : AssetId) : Place :=
  ((graph.get? id).map Asset.place).getD {}

/-- The graph with its assets at the given places. -/
def withPlaces (graph : AssetGraph) (places : AssetId → Place) : AssetGraph :=
  { graph with slots := graph.slots.mapIdx fun i slot => slot.map (·.withPlace (places ⟨i⟩)) }

@[simp]
theorem index_withPlaces (graph : AssetGraph) (places : AssetId → Place) :
    (graph.withPlaces places).index = graph.index := rfl

@[simp]
theorem size_withPlaces (graph : AssetGraph) (places : AssetId → Place) :
    (graph.withPlaces places).size = graph.size := by
  simp [size, withPlaces]

theorem get?_withPlaces (graph : AssetGraph) (places : AssetId → Place) (id : AssetId) :
    (graph.withPlaces places).get? id = (graph.get? id).map (·.withPlace (places id)) := by
  simp only [get?, withPlaces, List.getElem?_mapIdx]
  cases graph.slots[id.index]? with
  | none => rfl
  | some slot => cases slot <;> rfl

/-- A graph is what its ids lead to, together with its index. -/
theorem ext_get? {a b : AssetGraph} (hsize : a.size = b.size) (hindex : a.index = b.index)
    (hget : ∀ id, a.get? id = b.get? id) : a = b := by
  have hslots : a.slots = b.slots := by
    refine List.ext_getElem hsize fun i ha hb => ?_
    have hid := hget ⟨i⟩
    rw [get?, get?, List.getElem?_eq_getElem ha, List.getElem?_eq_getElem hb] at hid
    exact hid
  cases a
  cases b
  cases hslots
  cases hindex
  rfl

/-- Assets at other places are the same assets once their places are taken away. -/
theorem withoutPlace_withPlaces (graph : AssetGraph) (places : AssetId → Place) :
    (graph.withPlaces places).updateAll Asset.withoutPlace = graph.updateAll Asset.withoutPlace := by
  refine ext_get? (by simp [size, updateAll, withPlaces]) rfl fun id => ?_
  rw [get?_updateAll, get?_updateAll, get?_withPlaces, Option.map_map]
  rfl

/-- Graphs of the same size with the same content differ in the places of their assets only. -/
theorem SameContent.eq_withPlaces {old new : AssetGraph} (h : old.SameContent new)
    (hsize : new.size = old.size) : new = old.withPlaces new.placeOf := by
  refine ext_get? (hsize.trans (size_withPlaces old _).symm) h.index fun id => ?_
  have hid := h.assets id
  rw [get?_withPlaces]
  cases hnew : new.get? id with
  | none =>
    rw [hnew, Option.map_none, eq_comm, Option.map_eq_none_iff] at hid
    rw [hid, Option.map_none]
  | some asset =>
    obtain ⟨before, hbefore, hcontent⟩ := h.symm.exists_get? hnew
    have hplace : new.placeOf id = asset.place := by rw [placeOf, hnew]; rfl
    rw [hbefore, Option.map_some, hplace]
    exact congrArg some (Asset.eq_withPlace_of_withoutPlace hcontent.symm)

end AssetGraph

/-! ## Layouts -/

namespace Layout

/-- A layout leaves the graph as it is, except that its assets are at new places. -/
theorem graph_anew (graph : AssetGraph) (outDir : Path) (start : AssetId) :
    (anew graph outDir start).graph = graph.withPlaces (anew graph outDir start).graph.placeOf :=
  (sameContent_anew graph outDir start).eq_withPlaces (size_anew graph outDir start)

/-- Where the assets were before has no part in a layout. -/
theorem anew_withPlaces (graph : AssetGraph) (places : AssetId → Place) (outDir : Path) (start : AssetId) :
    anew (graph.withPlaces places) outDir start = anew graph outDir start := by
  rw [anew, AssetGraph.withoutPlace_withPlaces]

/-- What is laid out after another layout, from whatever entry that was, is laid out as if for the first
time. -/
theorem anew_anew (graph : AssetGraph) (outDir outDir' : Path) (start start' : AssetId) :
    anew (anew graph outDir' start').graph outDir start = anew graph outDir start := by
  rw [graph_anew, anew_withPlaces]

/-- A layout changes nothing about the assets but their places, nor anything about the paths that lead to
them.  The bundles and the places that it makes are the same wherever the assets were before, and the same
when the graph is laid out a second time. -/
theorem anew_forgets (graph : AssetGraph) (outDir : Path) (start : AssetId) :
    ((anew graph outDir start).graph.index = graph.index ∧
      (anew graph outDir start).graph.size = graph.size ∧
      ∀ id, (anew graph outDir start).graph.get? id =
        (graph.get? id).map (·.withPlace ((anew graph outDir start).graph.placeOf id))) ∧
    (∀ places, anew (graph.withPlaces places) outDir start = anew graph outDir start) ∧
    anew (anew graph outDir start).graph outDir start = anew graph outDir start := by
  refine ⟨⟨?_, size_anew graph outDir start, fun id => ?_⟩,
    fun places => anew_withPlaces graph places outDir start, anew_anew graph outDir outDir start start⟩
  · exact (sameContent_anew graph outDir start).index
  · rw [← AssetGraph.get?_withPlaces, ← graph_anew]

end Layout
end ModuleBundler
