import DpuCycles.Split.Layer
import Mathlib.Algebra.GroupWithZero.Nat

namespace DpuCycles

/-!
# Shares of tiles

Rows and channels are dealt to the tiles one after another: each takes a share of one
size out of what is left, and a tile that finds nothing left is passed over.  What was
dealt and what is left always make up the whole.  A share falls short only where it
takes all that is left, and nothing is dealt behind it.

A tile is the layer with its share of the rows or of the channels, and all else of the
layer is kept.
-/

namespace Layer

/-- Shares of a size, dealt to a number of tiles out of what is left. -/
def dealt
    (size : Nat) :
    Nat → Nat → List Nat
  | 0, _ => []
  | tiles + 1, left =>
      let share := min left size
      if share = 0 then
        dealt size tiles (left - share)
      else
        share :: dealt size tiles (left - share)

theorem ceilDiv_eq_zero
    {total size : Nat}
    (nothing : min total size = 0) :
    ceilDiv total size = 0 := by
  obtain rfl | rfl : total = 0 ∨ size = 0 := by
    omega
  · exact zero_ceilDiv size
  · exact Nat.div_zero _

/-- Behind a first share there is one piece less. -/
theorem ceilDiv_eq_succ
    {total size : Nat}
    (some : 0 < min total size) :
    ceilDiv total size = ceilDiv (total - size) size + 1 := by
  have sizePositive : 0 < size := Nat.lt_of_lt_of_le some (Nat.min_le_right _ _)
  unfold ceilDiv
  rw [← Nat.add_div_right _ sizePositive]
  obtain fits | short := Nat.le_total size total
  · congr 1
    omega
  · -- A share that takes all is the only piece.
    rw [Nat.sub_eq_zero_of_le short, Nat.div_eq_of_lt_le (k := 1) (by omega) (by omega),
      Nat.div_eq_of_lt_le (k := 1) (by omega) (by omega)]

/-- The pieces of a total are the shares that are dealt out of it. -/
theorem pieces_eq_dealt
    (total size tiles : Nat) :
    pieces total size tiles = dealt size tiles total := by
  induction tiles generalizing total with
  | zero =>
      simp [pieces, dealt]
  | succ tiles inductionHypothesis =>
      unfold dealt
      dsimp only
      rw [← inductionHypothesis]
      split
      · rename_i nothing
        have noPieces := ceilDiv_eq_zero nothing
        simp [pieces, nothing, noPieces]
      · rename_i some
        have left : total - min total size = total - size := by
          omega
        have more := ceilDiv_eq_succ (Nat.pos_of_ne_zero some)
        have shift : ∀ position,
            total - size - position * size = total - (position + 1) * size := by
          intro position
          rw [Nat.succ_mul]
          omega
        simp only [pieces, more, left, shift, Nat.succ_min_succ, List.range_succ_eq_map,
          List.map_cons, List.map_map, Nat.zero_mul, Nat.sub_zero]
        rfl

/-- Shares of a total: none is empty, and only the last one may be short of the size. -/
structure Deals
    (total size tiles : Nat)
    (shares : List Nat) : Prop where
  atMost : shares.length ≤ tiles
  positive : ∀ share ∈ shares, 0 < share
  within : ∀ share ∈ shares, share ≤ size
  sum : shares.sum = total
  even : ∀ share ∈ shares.dropLast, share = size

namespace Deals

variable
  {total size tiles : Nat}
  {shares : List Nat}

/-- Of nothing, nothing is dealt. -/
theorem nil : Deals 0 size tiles [] where
  atMost := Nat.zero_le tiles
  positive := by simp
  within := by simp
  sum := rfl
  even := by simp

/-- A tile may be passed over. -/
theorem pass
    (deals : Deals total size tiles shares) :
    Deals total size (tiles + 1) shares :=
  { deals with atMost := Nat.le_succ_of_le deals.atMost }

/-- One more share in front, as great as the size and what is left allow. -/
theorem cons
    (some : 0 < min total size)
    (deals : Deals (total - min total size) size tiles shares) :
    Deals total size (tiles + 1) (min total size :: shares) where
  atMost := Nat.succ_le_succ deals.atMost
  positive := List.forall_mem_cons.mpr ⟨some, deals.positive⟩
  within := List.forall_mem_cons.mpr ⟨Nat.min_le_right _ _, deals.within⟩
  sum := by
    rw [List.sum_cons, deals.sum]
    omega
  even := by
    cases shares with
    | nil =>
        simp
    | cons next rest =>
        -- There is a next share, so the first one did not take all.
        have nextPositive := deals.positive next List.mem_cons_self
        have sum := deals.sum
        rw [List.sum_cons] at sum
        rw [List.dropLast_cons_cons]
        exact List.forall_mem_cons.mpr ⟨by omega, deals.even⟩

end Deals

/-- As much of a total is dealt out as the tiles can take. -/
theorem deals_dealt
    (total size tiles : Nat) :
    Deals (min total (tiles * size)) size tiles (dealt size tiles total) := by
  induction tiles generalizing total with
  | zero =>
      rw [Nat.zero_mul, Nat.min_zero]
      exact .nil
  | succ tiles inductionHypothesis =>
      have others := inductionHypothesis (total - min total size)
      rw [Nat.succ_mul]
      unfold dealt
      dsimp only
      split
      · rename_i nothing
        have nothingMore : min (total - min total size) (tiles * size) =
            min total (tiles * size + size) := by
          obtain rfl | rfl : total = 0 ∨ size = 0 := by
            omega
          · simp
          · simp
        exact nothingMore ▸ others.pass
      · rename_i some
        have share : min (min total (tiles * size + size)) size = min total size := by
          omega
        have rest : min (total - min total size) (tiles * size) =
            min total (tiles * size + size) - min total size := by
          omega
        rw [rest, ← share] at others
        exact share ▸ others.cons (share.symm ▸ Nat.pos_of_ne_zero some)

/-- Pieces as long as an even share deal out all of a total. -/
theorem deals_pieces
    {total size tiles : Nat}
    (positive : 0 < tiles)
    (enough : ceilDiv total tiles ≤ size) :
    Deals total size tiles (pieces total size tiles) := by
  have covered : total ≤ size * tiles := (ceilDiv_le_iff positive).mp enough
  have all : min total (tiles * size) = total :=
    Nat.min_eq_left (Nat.mul_comm size tiles ▸ covered)
  have deals := deals_dealt total size tiles
  rwa [all, ← pieces_eq_dealt] at deals

/-- The share of one tile with other extents of its output and its input. -/
def withExtents
    (layer : Layer)
    (output input : Shape) : Layer :=
  { layer with
    tiles := 1
    workload :=
      { layer.workload with
        output := { layer.output with shape := output }
        input := { layer.input with shape := input } } }

/-- A share of channels that is rounded up within 32 bits is kept, and the tiles can take all. -/
theorem channelShare_of_fits
    {layer : Layer}
    {tiles step : Nat}
    (fits : roundUp (ceilDiv layer.output.shape.channels (max tiles 1)) (max step 1) < 2 ^ 32) :
    layer.channelShare tiles step =
        roundUp (ceilDiv layer.output.shape.channels (max tiles 1)) (max step 1) ∧
      layer.output.shape.channels ≤ max tiles 1 * layer.channelShare tiles step := by
  have kept := word_of_lt fits
  refine ⟨kept, ?_⟩
  rw [channelShare, kept, Nat.mul_comm]
  exact (ceilDiv_le_iff (Nat.le_max_right tiles 1)).mp (le_roundUp _ (Nat.le_max_right step 1))

/--
Spread by rows, the tiles deal out the rows of the output in even shares, and each of
them is the layer but for its rows and for the rows it reads.  Spread by channels, they
deal out as many channels as even shares in whole steps can take, and each of them is the
layer but for its channels, which it also reads where the operation keeps channels.
Shares that are rounded up within 32 bits take all channels.
-/
theorem deals_of_split
    (layer : Layer)
    (tiles step : Nat) :
    let count := max tiles 1
    let output := layer.output.shape
    let input := layer.input.shape
    let share := layer.channelShare tiles step
    let rounded := roundUp (ceilDiv output.channels count) (max step 1)
    (Deals output.height (ceilDiv output.height count) count
        ((layer.splitRows tiles).map fun tile => tile.output.shape.height) ∧
      ∀ tile ∈ layer.splitRows tiles,
        tile =
          layer.withExtents
            { output with height := tile.output.shape.height }
            { input with height := tile.input.shape.height }) ∧
      (Deals (min output.channels (count * share)) share count
          ((layer.splitChannels tiles step).map fun tile => tile.output.shape.channels) ∧
        (rounded < 2 ^ 32 → share = rounded ∧ output.channels ≤ count * share)) ∧
      ∀ tile ∈ layer.splitChannels tiles step,
        tile =
          layer.withExtents
            { output with channels := tile.output.shape.channels }
            { input with channels := tile.input.shape.channels } ∧
          tile.input.shape.channels =
            if layer.operation.keepsChannels then
              tile.output.shape.channels
            else
              input.channels := by
  intro count output input share rounded
  have positive : 0 < count := Nat.le_max_right tiles 1
  refine ⟨⟨?_, ?_⟩, ⟨?_, channelShare_of_fits⟩, ?_⟩
  · have shares : (layer.splitRows tiles).map (fun tile => tile.output.shape.height) =
        pieces output.height (ceilDiv output.height count) count := by
      rw [splitRows, List.map_map]
      exact List.map_id _
    rw [shares]
    exact deals_pieces positive (Nat.le_refl _)
  · intro tile member
    obtain ⟨rows, _, rfl⟩ := List.mem_map.mp member
    rfl
  · have shares : (layer.splitChannels tiles step).map (fun tile => tile.output.shape.channels) =
        pieces output.channels share count := by
      rw [splitChannels, List.map_map]
      exact List.map_id _
    rw [shares, pieces_eq_dealt]
    exact deals_dealt _ _ _
  · intro tile member
    obtain ⟨channels, _, rfl⟩ := List.mem_map.mp member
    unfold withChannels operation
    dsimp only
    split <;> exact ⟨rfl, rfl⟩

/-- A layer of a number of channels in 14 by 14 points. -/
def fourteenSquare (channels : Nat) : Layer :=
  let tensor := Tensor.dense ⟨14, 14, channels, 1⟩ .uint8
  .ofWorkload (.plain .vpu27 .convolution tensor tensor .cuboid16x16)

/-- On four tiles fourteen rows leave a short share, and forty-eight channels leave a tile idle. -/
theorem deals_of_fourteenSquare :
    let layer := fourteenSquare 48
    (layer.splitRows 4).map (·.output.shape.height) = [4, 4, 4, 2] ∧
      (layer.splitChannels 4 16).map (·.output.shape.channels) = [16, 16, 16] ∧
      roundUp (ceilDiv 48 4) 16 < 2 ^ 32 ∧
      Deals 48 16 4 ((layer.splitChannels 4 16).map (·.output.shape.channels)) := by
  have fits : roundUp (ceilDiv 48 4) 16 < 2 ^ 32 := by decide
  obtain ⟨_, ⟨deals, takesAll⟩, _⟩ := deals_of_split (fourteenSquare 48) 4 16
  obtain ⟨share, all⟩ := takesAll fits
  refine ⟨by decide, by decide, fits, ?_⟩
  rwa [Nat.min_eq_left all, share] at deals

/-- Channels that are rounded up to just beyond 32 bits are given to no tile. -/
theorem splitChannels_of_greatestChannels :
    (fourteenSquare 4294967295).output.shape.channels = 4294967295 ∧
      (fourteenSquare 4294967295).splitChannels 1 16 = [] := by
  decide

end Layer

end DpuCycles
