import Mathlib.Order.CompletePartialOrder
import Mathlib.Data.Set.Lattice
import Mathlib.Algebra.Order.Group.Nat

/-!
# Exact tilings

A list of tiles tiles a region of cells exactly when the tiles lie in it, no two
of them share a cell, and together they cover it.  Tilings of disjoint regions
append, so a loop that walks an axis in chunks tiles its slab as soon as each
turn tiles the slab of its chunk, whatever the chunk lengths are.
-/

namespace ExactTilings

variable {Cell Tile Stop : Type*}

def slab (coordinate : Cell → ℕ) (region : Set Cell) (start stop : ℕ) :
    Set Cell :=
  {cell | cell ∈ region ∧ start ≤ coordinate cell ∧ coordinate cell < stop}

structure Tiles (cover : Tile → Set Cell) (tiles : List Tile)
    (region : Set Cell) : Prop where
  inside : ∀ tile ∈ tiles, cover tile ⊆ region
  apart : tiles.Pairwise fun first second =>
    Disjoint (cover first) (cover second)
  covered : ∀ cell ∈ region, ∃ tile ∈ tiles, cell ∈ cover tile

variable {cover : Tile → Set Cell} {region : Set Cell}
variable {coordinate : Cell → ℕ}

namespace Tiles

theorem nil : Tiles cover [] ∅ where
  inside := by simp
  apart := List.Pairwise.nil
  covered := by simp

theorem singleton (tile : Tile) : Tiles cover [tile] (cover tile) where
  inside := by simp
  apart := List.pairwise_singleton _ _
  covered := fun cell member => ⟨tile, by simp, member⟩

theorem append {first second : List Tile} {left right : Set Cell}
    (firstTiles : Tiles cover first left)
    (secondTiles : Tiles cover second right) (disjoint : Disjoint left right) :
    Tiles cover (first ++ second) (left ∪ right) where
  inside := by
    intro tile member
    rcases List.mem_append.mp member with early | late
    · exact (firstTiles.inside tile early).trans Set.subset_union_left
    · exact (secondTiles.inside tile late).trans Set.subset_union_right
  apart := by
    rw [List.pairwise_append]
    refine ⟨firstTiles.apart, secondTiles.apart, ?_⟩
    intro early earlyMember late lateMember
    exact disjoint.mono (firstTiles.inside early earlyMember) (secondTiles.inside late lateMember)
  covered := by
    rintro cell (inLeft | inRight)
    · obtain ⟨tile, member, covers⟩ := firstTiles.covered cell inLeft
      exact ⟨tile, List.mem_append_left _ member, covers⟩
    · obtain ⟨tile, member, covers⟩ := secondTiles.covered cell inRight
      exact ⟨tile, List.mem_append_right _ member, covers⟩

theorem existsUnique_index {tiles : List Tile} (tiling : Tiles cover tiles region)
    {cell : Cell} (member : cell ∈ region) :
    ∃! index : Fin tiles.length, cell ∈ cover (tiles.get index) := by
  obtain ⟨tile, listed, covers⟩ := tiling.covered cell member
  obtain ⟨index, rfl⟩ := List.get_of_mem listed
  refine ⟨index, covers, ?_⟩
  intro other alsoCovers
  have shared (first second : Fin tiles.length)
      (lt : first < second) (inFirst : cell ∈ cover (tiles.get first))
      (inSecond : cell ∈ cover (tiles.get second)) : False :=
    Set.disjoint_left.mp (List.pairwise_iff_getElem.mp tiling.apart first second first.isLt
        second.isLt lt) inFirst inSecond
  rcases Nat.lt_trichotomy other.val index.val with lt | eq | lt
  · exact (shared other index lt alsoCovers covers).elim
  · exact Fin.ext eq
  · exact (shared index other lt covers alsoCovers).elim

end Tiles

theorem slab_self (start : ℕ) : slab coordinate region start start = ∅ := by
  ext cell
  simp only [slab, Set.mem_ofPred_eq, Set.mem_empty_iff_false, iff_false]
  rintro ⟨-, low, high⟩
  omega

variable {start middle stop : ℕ}

theorem slab_union (first : start ≤ middle) (second : middle ≤ stop) :
    slab coordinate region start middle ∪ slab coordinate region middle stop =
      slab coordinate region start stop := by
  ext cell
  simp only [slab, Set.mem_union, Set.mem_ofPred_eq]
  constructor
  · rintro (⟨member, low, high⟩ | ⟨member, low, high⟩)
    · exact ⟨member, low, by omega⟩
    · exact ⟨member, by omega, high⟩
  · rintro ⟨member, low, high⟩
    rcases Nat.lt_or_ge (coordinate cell) middle with below | above
    · exact Or.inl ⟨member, low, below⟩
    · exact Or.inr ⟨member, above, high⟩

theorem slab_disjoint (start middle stop : ℕ) : Disjoint (slab coordinate region start middle)
      (slab coordinate region middle stop) := by
  rw [Set.disjoint_left]
  rintro cell ⟨-, -, below⟩ ⟨-, above, -⟩
  omega

theorem Tiles.append_slabs {first second : List Tile}
    (firstTiles : Tiles cover first (slab coordinate region start middle))
    (secondTiles : Tiles cover second (slab coordinate region middle stop))
    (low : start ≤ middle) (high : middle ≤ stop) :
    Tiles cover (first ++ second) (slab coordinate region start stop) := by
  rw [← slab_union low high]
  exact firstTiles.append secondTiles (slab_disjoint start middle stop)

def TilesWith (kind : Tile → Prop) (cover : Tile → Set Cell)
    (run : Except Stop (List Tile)) (region : Set Cell) : Prop :=
  ∃ tiles, run = .ok tiles ∧ Tiles cover tiles region ∧ ∀ tile ∈ tiles, kind tile

/-- A counting loop over an axis: a turn at a coordinate takes at most `step`
coordinates, runs its body on them and goes on behind them.  The counter is
reduced by `wrap`; `stuck` is thrown when the turns run out. -/
def chunkLoop (wrap : ℕ → ℕ) (stuck : Stop) (limit step : ℕ)
    (body : ℕ → ℕ → Except Stop (List Tile)) :
    ℕ → ℕ → Except Stop (List Tile)
  | 0, position => if position < limit then .error stuck else .ok []
  | turns + 1, position =>
      if position < limit then do
        let count := min step (limit - position)
        let here ← body position count
        let rest ← chunkLoop wrap stuck limit step body turns (wrap (position + count))
        return here ++ rest
      else .ok []

theorem chunkLoop_tiles {wrap : ℕ → ℕ} {stuck : Stop} {limit step : ℕ}
    {body : ℕ → ℕ → Except Stop (List Tile)} {kind : Tile → Prop}
    {origin : ℕ} (positive : 0 < step)
    (noWrap : ∀ position ≤ limit, wrap position = position)
    (turn : ∀ position count, 0 < count → count ≤ step → position + count ≤ limit →
      TilesWith kind cover (body position count) (slab coordinate region (origin + position)
          (origin + (position + count))))
    {turns position : ℕ} (enough : limit ≤ position + turns)
    (low : position ≤ limit) :
    TilesWith kind cover (chunkLoop wrap stuck limit step body turns position)
      (slab coordinate region (origin + position) (origin + limit)) := by
  induction turns generalizing position with
  | zero =>
    obtain rfl : position = limit := by omega
    refine ⟨[], ?_, ?_, by simp⟩
    · rw [chunkLoop, if_neg (lt_irrefl _)]
    · rw [slab_self]
      exact Tiles.nil
  | succ turns ih =>
    by_cases more : position < limit
    · have count : 0 < min step (limit - position) := by omega
      have fits : position + min step (limit - position) ≤ limit := by omega
      obtain ⟨here, ran, hereTiles, hereKind⟩ :=
        turn position _ count (min_le_left _ _) fits
      obtain ⟨rest, went, restTiles, restKind⟩ := ih
        (show limit ≤ position + min step (limit - position) + turns by omega)
        fits
      refine ⟨here ++ rest, ?_, ?_, ?_⟩
      · rw [chunkLoop, if_pos more]
        simp only [ran, noWrap _ fits, went]
        rfl
      · exact hereTiles.append_slabs restTiles (by omega) (by omega)
      · intro tile member
        rcases List.mem_append.mp member with early | late
        · exact hereKind tile early
        · exact restKind tile late
    · obtain rfl : position = limit := by omega
      refine ⟨[], ?_, ?_, by simp⟩
      · rw [chunkLoop, if_neg more]
      · rw [slab_self]
        exact Tiles.nil

end ExactTilings
