-- SUMMARY: The chain of extents of a file and its invariant, and the runs of writes that keep it.
import Mathlib.Algebra.Ring.Int.Defs
import Spfs.File.Write

/-!
# The chain of extents

The invariant ties the size and the capacity of an inode to the headers of its extents.
An empty file has it. The first write that gets an extent breaks it for good: the header
of the extent counts the bytes, but the call fails before it stores the new size.
-/

namespace Spfs

/-- The extents from a sector on, each with its sector and its header. -/
inductive ExtentChain (disk : ℕ → Block) : ℕ → List (ℕ × FileExtent) → Prop where
  | nil : ExtentChain disk 0 []
  | cons {s : ℕ} {e : FileExtent} {rest : List (ℕ × FileExtent)} : s ≠ 0 → ExtentAt (disk s) e →
      ExtentChain disk e.next rest → ExtentChain disk s ((s, e) :: rest)

/-- The bytes an extent has room for. -/
def FileExtent.room (bSize : ℕ) (e : FileExtent) : ℤ := e.capacity * bSize - 16

/-- The chain of the inode, and what its headers say. -/
structure IsFileChain (w : World) (i : SpfsInode) (chain : List (ℕ × FileExtent)) : Prop where
  linked : ExtentChain w.disk i.start chain
  nodup : (chain.map Prod.fst).Nodup
  capacity : (i.capacity : ℤ) = (chain.map fun c => c.2.room w.bSize).sum
  length_le : ∀ c ∈ chain, (c.2.length : ℤ) ≤ c.2.room w.bSize
  full : chain.IsChain fun c c' => c'.2.length ≠ 0 → (c.2.length : ℤ) = c.2.room w.bSize
  size : (chain.map fun c => c.2.length).sum = i.iSize

def ExtentsInvariant (p : ℕ) (w : World) : Prop :=
  ∃ i chain, w.inodes p = some i ∧ IsFileChain w i chain

/-- The invariant holds after each of the writes. The state after a write that waits for
the lock is the one it waits in. -/
def HoldsAfterEach (env : Env) (p : ℕ) : List (List UInt8 × ℕ) → World → Prop
  | [], _ => True
  | (buf, pos) :: calls, w =>
    let w' := ((spfsWrite env p buf pos).run w).final
    ExtentsInvariant p w' ∧ HoldsAfterEach env p calls w'

section Runs

variable {env : Env} {p : ℕ} {w : World} {i : SpfsInode}

theorem ExtentAt.unique {b : Block} {e e' : FileExtent} (h : ExtentAt b e) (h' : ExtentAt b e') :
    e = e' := by
  rw [← h.eq, h'.eq]

/-- A file without extents has the invariant. -/
theorem extentsInvariant_of_empty (hp : w.inodes p = some i) (hstart : i.start = 0)
    (hcapacity : i.capacity = 0) (hsize : i.iSize = 0) : ExtentsInvariant p w := by
  refine ⟨i, [], hp, ⟨?_, List.nodup_nil, ?_, by simp, .nil, ?_⟩⟩
  · rw [hstart]
    exact .nil
  · simp [hcapacity]
  · simp [hsize]

/-- The bytes of an extent that nothing follows are the size of the file. -/
theorem ExtentsInvariant.size_of_single {s : ℕ} {e : FileExtent} (h : ExtentsInvariant p w)
    (hp : w.inodes p = some i) (hstart : i.start = s) (hne : s ≠ 0) (hext : ExtentAt (w.disk s) e)
    (hlast : e.next = 0) : i.iSize = e.length := by
  obtain ⟨i', chain, hp', hchain⟩ := h
  obtain rfl : i = i' := Option.some.inj (hp.symm.trans hp')
  have hlinked := hchain.linked
  have hsize := hchain.size
  rw [hstart] at hlinked
  cases hlinked with
  | nil => exact absurd rfl hne
  | cons _ hext' hrest =>
    obtain rfl := hext.unique hext'
    rw [hlast] at hrest
    cases hrest with
    | nil => simpa using hsize.symm
    | cons hne' => exact absurd rfl hne'

theorem holdsAfterEach_of_held {calls : List (List UInt8 × ℕ)} (hp : w.inodes p = some i)
    (hreg : sIsReg i.iMode = true) (hlock : i.lock = true) (h : ExtentsInvariant p w) :
    HoldsAfterEach env p calls w := by
  induction calls with
  | nil => trivial
  | cons c calls ih =>
    obtain ⟨buf, pos⟩ := c
    rw [HoldsAfterEach, run_spfsWrite_held hp hreg hlock]
    exact ⟨h, ih⟩

end Runs

/-- The invariant of an empty file holds after each of a sequence of writes exactly when
there is no write of any bytes or no space for the first of them. -/
theorem spfsWrite_extents_iff {env : Env} {p : ℕ} {w : World} {i : SpfsInode}
    {calls : List (List UInt8 × ℕ)} (hio : ∀ t s, env.ioOk t s = true)
    (hsize : w.sbi.blockSize = w.bSize) (hp : w.inodes p = some i) (hi : EmptyFile i)
    (hmax : ∀ c ∈ calls, c.1.length ≤ maxRwCount)
    (hstores : ∀ c ∈ calls, (spfsFreeAlloc w.sbi.freeList (firstBlocks w c.1.length)).1 ≠ 0 →
      StoresStart env i.iIno (withFirstExtent w p { i with lock := true } c.1.length)) :
    HoldsAfterEach env p calls w ↔ ∀ c, calls.find? (fun c => c.1 ≠ []) = some c →
      (spfsFreeAlloc w.sbi.freeList (firstBlocks w c.1.length)).1 = 0 := by
  induction calls with
  | nil => simp [HoldsAfterEach]
  | cons c calls ih =>
    obtain ⟨buf, pos⟩ := c
    have hrest := ih (fun c hc => hmax c (List.mem_cons_of_mem _ hc))
      (fun c hc => hstores c (List.mem_cons_of_mem _ hc))
    have hlen : buf.length ≤ maxRwCount := hmax _ List.mem_cons_self
    rw [HoldsAfterEach]
    by_cases hbuf : buf = []
    · -- nothing to write
      subst hbuf
      have hnone : ((spfsWrite env p [] pos).run w).final = w := rfl
      rw [hnone, hrest, List.find?_cons_of_neg (by simp)]
      exact and_iff_right (extentsInvariant_of_empty hp hi.start hi.capacity hi.size)
    rw [List.find?_cons_of_pos (by simpa using hbuf)]
    have hfirst : (∀ c, some (buf, pos) = some c →
        (spfsFreeAlloc w.sbi.freeList (firstBlocks w c.1.length)).1 = 0) ↔
        (spfsFreeAlloc w.sbi.freeList (firstBlocks w buf.length)).1 = 0 :=
      ⟨fun h => h _ rfl, by rintro h _ ⟨⟩; exact h⟩
    rw [hfirst]
    by_cases hs : (spfsFreeAlloc w.sbi.freeList (firstBlocks w buf.length)).1 = 0
    · obtain ⟨w', hrun, hp', -⟩ := run_spfsWrite_noSpace env hsize hp hi hbuf hlen hs pos
      have hinv := extentsInvariant_of_empty hp' hi.start hi.capacity hi.size
      rw [hrun]
      exact iff_of_true ⟨hinv, holdsAfterEach_of_held hp' hi.isReg rfl hinv⟩ hs
    · obtain ⟨w', hrun, hp', -, hext⟩ := run_spfsWrite_first hio hsize hp hi hbuf hlen rfl hs
        (hstores _ List.mem_cons_self hs) pos
      rw [hrun]
      refine iff_of_false (fun h => ?_) hs
      have hbytes := h.1.size_of_single hp' rfl hs hext rfl
      have hzero : i.iSize = buf.length := hbytes
      have hpos : 1 ≤ buf.length := List.length_pos_iff.mpr hbuf
      rw [hi.size] at hzero
      omega

theorem spfsWrite_extents_iff_oneFile :
    HoldsAfterEach (.calm 9) 1 [([65], 0)] oneFileWorld ↔
      ∀ c, [(([65] : List UInt8), 0)].find? (fun c => c.1 ≠ []) = some c →
        (spfsFreeAlloc oneFileWorld.sbi.freeList (firstBlocks oneFileWorld c.1.length)).1 = 0 := by
  refine spfsWrite_extents_iff (i := plainFile 1) (fun _ _ => rfl) rfl rfl (emptyFile_plainFile 1)
    (by simp [maxRwCount]) fun c hc _ => ?_
  rw [List.mem_singleton.mp hc]
  exact storesStart_oneFileWorld _

/-- After a write of one byte the header of the extent counts it, and the size does not. -/
theorem not_holdsAfterEach_oneFile :
    oneFileWorld.inodes 1 = some (plainFile 1) ∧ EmptyFile (plainFile 1) ∧
      (Env.calm 9).Grants ∧ oneFileWorld.sbi.blockSize = oneFileWorld.bSize ∧
      (∀ i, StoresStart (.calm 9) 1 (withFirstExtent oneFileWorld 1 i 1)) ∧
      ¬ HoldsAfterEach (.calm 9) 1 [([65], 0)] oneFileWorld := by
  refine ⟨rfl, emptyFile_plainFile 1, Env.calm_grants 9, rfl, storesStart_oneFileWorld, ?_⟩
  have halloc : (spfsFreeAlloc oneFileWorld.sbi.freeList
      (firstBlocks oneFileWorld ([65] : List UInt8).length)).1 = 101 := by
    rw [List.length_singleton, firstBlocks_oneFileWorld]
    decide
  have hbytes : ([65] : List UInt8) ≠ [] := by simp
  obtain ⟨w', hrun, hp', -, hext⟩ := run_spfsWrite_first (fun _ _ => rfl) rfl rfl
    (emptyFile_plainFile 1) hbytes (by decide) halloc (by decide) (storesStart_oneFileWorld _) 0
  intro h
  rw [HoldsAfterEach, hrun] at h
  exact absurd (h.1.size_of_single hp' rfl (by decide) hext rfl) (by decide)

end Spfs
