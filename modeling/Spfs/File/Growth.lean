-- SUMMARY: The growth of a file: spfs_calc_extra_blocks asks for the fewest blocks that make room for the bytes.
import Mathlib.Order.Bounds.Basic
import Spfs.File.WritePath

/-!
# The growth of a file

A file grows by one extent, whose header takes 16 bytes of its blocks. The blocks are
counted by a loop that takes one block after the other away from the bytes that are missing
and the header.
-/

namespace Spfs

section Growth

variable {sbi : SuperBlock} {capacity inPos inLen end_ n : ℕ}

/-- With an extent of `n` more blocks the capacity reaches the end. -/
def GrowsTo (sbi : SuperBlock) (capacity end_ n : ℕ) : Prop :=
  1 ≤ n ∧ ∃ bytes, (∀ w, (spfsFileExtentDataBytes sbi n).run w = .ok bytes w) ∧
    end_ ≤ capacity + bytes

/-- The blocks are enough, fewer are not, and no number on the way to them is cut. -/
structure GrowsBy (sbi : SuperBlock) (capacity end_ n : ℕ) : Prop where
  least : IsLeast {n | GrowsTo sbi capacity end_ n} n
  counted : n = spfsBlocksFor sbi.blockSize (end_ - capacity + spfsSizeofFileExtentHeader)
  header : spfsSizeofFileExtentHeader ≤ n * sbi.blockSize
  uncut : n * sbi.blockSize < 2 ^ 64

/-- An extent whose bytes can be counted has room for all but its header. -/
theorem growsTo_iff (hbs : 512 ≤ sbi.blockSize) (hn : n * sbi.blockSize < 2 ^ 64) :
    GrowsTo sbi capacity end_ n ↔ 1 ≤ n ∧ end_ + 16 ≤ capacity + n * sbi.blockSize := by
  constructor
  · rintro ⟨hpos, bytes, hrun, hend⟩
    have hmany : 1 * 512 ≤ n * sbi.blockSize := Nat.mul_le_mul hpos hbs
    have hbytes : (n * sbi.blockSize % 2 ^ 64 + 2 ^ 64 - spfsSizeofFileExtentHeader) % 2 ^ 64 =
        bytes := by
      have hcode := run_spfsFileExtentDataBytes sbi (Nat.one_le_iff_ne_zero.mp hpos) freshWorld
      exact (EStateM.Result.ok.inj (hcode.symm.trans (hrun freshWorld))).1
    rw [spfsSizeofFileExtentHeader] at hbytes
    exact ⟨hpos, by omega⟩
  · rintro ⟨hpos, hend⟩
    refine ⟨hpos, _, fun w => run_spfsFileExtentDataBytes sbi (Nat.one_le_iff_ne_zero.mp hpos) w, ?_⟩
    rw [spfsSizeofFileExtentHeader]
    omega

/-- The blocks that the loop counts are the fewest that hold the missing bytes and a header. -/
theorem spfsBlocksFor_growsBy (hbs : 512 ≤ sbi.blockSize) (hmore : capacity < end_)
    (hfits : end_ + 16 + sbi.blockSize < 2 ^ 64) :
    GrowsBy sbi capacity end_
      (spfsBlocksFor sbi.blockSize (end_ - capacity + spfsSizeofFileExtentHeader)) := by
  obtain ⟨hle, hlt⟩ := spfsBlocksFor_bounds (le_trans (by decide) hbs)
    (end_ - capacity + spfsSizeofFileExtentHeader)
  have hheader : spfsSizeofFileExtentHeader = 16 := rfl
  set n := spfsBlocksFor sbi.blockSize (end_ - capacity + spfsSizeofFileExtentHeader)
  have hsmall : n * sbi.blockSize < 2 ^ 64 := by omega
  have hpos : 1 ≤ n := by
    apply Nat.one_le_iff_ne_zero.mpr
    intro hzero
    rw [hzero, Nat.zero_mul] at hle
    omega
  refine ⟨⟨(growsTo_iff hbs hsmall).mpr ⟨hpos, by omega⟩, ?_⟩, rfl, by omega, hsmall⟩
  intro m hm
  -- with one block less the bytes do not fit
  by_contra hless
  have hblock : m * sbi.blockSize + sbi.blockSize ≤ n * sbi.blockSize := by
    rw [← Nat.succ_mul]
    exact Nat.mul_le_mul_right _ (Nat.not_le.mp hless)
  obtain ⟨-, hend⟩ := (growsTo_iff hbs (by omega)).mp hm
  omega

/-- No blocks are asked for when the capacity suffices, and else the fewest that do. -/
theorem spfsCalcExtraBlocks_growsBy (hbs : 512 ≤ sbi.blockSize)
    (hfits : inPos + inLen + 16 + sbi.blockSize < 2 ^ 64) :
    (inPos + inLen ≤ capacity → spfsCalcExtraBlocks sbi.blockSize capacity inPos inLen = 0) ∧
      (capacity < inPos + inLen → GrowsBy sbi capacity (inPos + inLen)
        (spfsCalcExtraBlocks sbi.blockSize capacity inPos inLen)) := by
  have hend : (inPos + inLen) % 2 ^ 64 = inPos + inLen := Nat.mod_eq_of_lt (by omega)
  unfold spfsCalcExtraBlocks
  rw [hend]
  constructor
  · intro hroom
    exact if_pos hroom
  · intro hmore
    have hextra : (inPos + inLen - capacity + spfsSizeofFileExtentHeader) % 2 ^ 64 =
        inPos + inLen - capacity + spfsSizeofFileExtentHeader := by
      apply Nat.mod_eq_of_lt
      rw [spfsSizeofFileExtentHeader]
      omega
    rw [if_neg (Nat.not_le.mpr hmore), hextra]
    exact spfsBlocksFor_growsBy hbs hmore hfits

/-- A first byte takes one block, and so do all bytes that go into it. -/
theorem spfsCalcExtraBlocks_growsBy_first :
    (0 + 496 ≤ 0 → spfsCalcExtraBlocks 512 0 0 496 = 0) ∧
      (0 < 0 + 496 → GrowsBy { freshWorld.sbi with blockSize := 512 } 0 (0 + 496)
        (spfsCalcExtraBlocks 512 0 0 496)) :=
  @spfsCalcExtraBlocks_growsBy { freshWorld.sbi with blockSize := 512 } 0 0 496 (by decide) (by decide)

end Growth

end Spfs
