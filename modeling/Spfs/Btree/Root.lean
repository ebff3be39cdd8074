-- SUMMARY: btree.c: the new root, which is built in the block of the old one.
import Spfs.Btree.NodeInsert

/-!
# A new root

`bnode_alloc_root` allocates a block for the new root and lets the tree start there,
but it builds the node in the buffer of the old root. The block that was allocated
keeps what it held, and the old root is lost (`run_bnodeAllocRoot`).
-/

namespace Spfs

open EStateM (run_bind_of_ok run_bind_of_error run_check_of_true run_check_of_false)

/-- The block of the old root after the new one was built in it. -/
def grownRoot (bSize : ℕ) (b : Block) (bubble : BtreeBubble) : Block :=
  withFirstEntry (withNoChild (b.write 0 (List.replicate bSize 0))) bubble.entry bubble.greater

/-- The state with the tree at the allocated block and `b` in the block of the old root. -/
def regrown (w : World) (root : ℕ) (fl : FreeList) (b : Block) : World :=
  ((w.setFreeList fl).setTreeStart root).setBlock w.sbi.tree.start b

section AllocRoot

variable {env : Env} {bubble : BtreeBubble} {root : ℕ} {fl : FreeList} {w : World}

/-- The child that is added first does not survive the insertion of the entry. -/
theorem withNoChild_write_child (b : Block) (child : ℕ) :
    withNoChild (b.write (childrenOff + 0 * 8) (cpuToBe32 child).val) = withNoChild b := by
  have hlen (n : ℕ) := (cpuToBe32 n).property
  exact Block.write_write_same (by rw [hlen, hlen])

/-- What the call does once it has a block and could read the old root. -/
theorem run_bnodeAllocRoot (env : Env) (bubble : BtreeBubble)
    (halloc : spfsFreeAlloc w.sbi.freeList w.sbi.tree.blocks = (root, fl)) (hroot : root ≠ 0)
    (hio : env.ioOk (w.time + 1) w.sbi.tree.start = true) :
    (1620 ≤ w.bSize ∧ ∃ w',
      OnlyLogs (regrown w root fl (grownRoot w.bSize (w.disk w.sbi.tree.start) bubble)) w' ∧
      w'.time = w.time + 4 ∧ (bnodeAllocRoot env bubble).run w = .ok 0 w') ∨
    (w.bSize < 1620 ∧ ∃ b w', nodeLength b ≤ 1 ∧ OnlyLogs (regrown w root fl b) w' ∧
      (bnodeAllocRoot env bubble).run w = .error .oob w') := by
  set less := w.sbi.tree.start with hless
  set w₁ := (w.setFreeList fl).addEvent (.alloc root w.sbi.tree.blocks) with hw₁
  have hallocRun : (freeAlloc w.sbi.tree.blocks).run w = .ok root w₁ := by
    rw [run_freeAlloc, halloc]
    simp [hroot, hw₁]
  have hread : (sbBread env less).run w₁ = .ok true (w₁.addEvent (.bread less true)) :=
    run_sbBread_ok hio
  set w₂ := w₁.addEvent (.bread less true) with hw₂
  set zeroed := (w.disk less).write 0 (List.replicate w.bSize 0)
  set w₃ := (w₂.setBlock less zeroed).setTreeStart root with hw₃
  have hlen : nodeLength (w₃.disk less) = 0 := by
    simp only [hw₃, World.setTreeStart_disk, World.setBlock_disk, Function.update_self]
    exact nodeLength_zero (by have := w.le_bSize; omega)
  rw [bnodeAllocRoot, run_bind_of_ok (EStateM.run_get w), run_bind_of_ok (EStateM.run_get w),
    run_bind_of_ok hallocRun, if_neg hroot, run_check_of_true hread, bnodeMake,
    run_bind_of_ok (run_memZero less w₂), run_bind_of_ok (run_setTreeStart root _)]
  rw [show (w₂.setBlock less ((w₂.disk less).write 0 (List.replicate w₂.bSize 0))).setTreeStart
    root = w₃ from rfl]
  have hle : nodeLength (w₃.disk less) ≤ 100 := by omega
  have hlogs (b : Block) : OnlyLogs (regrown w root fl b) (w₃.setBlock less b) := by
    refine ⟨[.bread less true, .alloc root w.sbi.tree.blocks], ?_⟩
    simp only [regrown, hw₃, hw₂, hw₁, World.setBlock, World.setTreeStart, World.setFreeList,
      World.addEvent, Function.update_idem, List.cons_append, List.nil_append, hless]
  by_cases hfit : childrenOff + 8 ≤ w.bSize
  case neg =>
    -- not even the first child fits
    have hsmall : w.bSize < 1620 := by
      simp only [childrenOff, entriesOff, bnodeCapacity, sizeofBentry] at hfit
      omega
    have hchild : ¬ childrenOff + 0 * 8 + (cpuToBe32 less).val.length ≤ w₃.bSize := by
      rw [(cpuToBe32 less).property]
      exact hfit
    have hback : (bnodeChildAddBack less less).run w₃ = .error .oob w₃ := by
      rw [bnodeChildAddBack, run_bind_of_ok (run_bnodeLength hle), hlen, bnodeSetChild,
        run_bind_of_error (run_memWrite_oob hchild)]
    refine .inr ⟨hsmall, zeroed, w₃, ?_, ?_, by rw [run_bind_of_error hback]⟩
    · have : nodeLength zeroed = 0 := by simpa [hw₃] using hlen
      omega
    · have := hlogs (w₃.disk less)
      rw [World.setBlock_self] at this
      simpa [hw₃] using this
  have hchild : childrenOff + 0 * 8 + (cpuToBe32 less).val.length ≤ w₃.bSize := by
    rw [(cpuToBe32 less).property]
    exact hfit
  set b₄ := zeroed.write (childrenOff + 0 * 8) (cpuToBe32 less).val with hb₄
  have hback : (bnodeChildAddBack less less).run w₃ = .ok 0 (w₃.setBlock less b₄) := by
    have hdisk : w₃.disk less = zeroed := by simp [hw₃]
    rw [bnodeChildAddBack, run_bind_of_ok (run_bnodeLength hle), hlen, bnodeSetChild,
      run_bind_of_ok (run_memWrite hchild), EStateM.run_pure, hdisk]
  set w₄ := w₃.setBlock less b₄ with hw₄
  have hlen₄ : nodeLength (w₄.disk less) = 0 := by
    simp only [hw₄, hb₄, World.setBlock_disk, Function.update_self]
    rw [nodeLength_write_of_le (by decide)]
    simpa [hw₃] using hlen
  have hinsert := run_bnodeBinInsert_empty bubble.greater hlen₄ hfit
    (EntryPtr.pointsTo_bubble bubble less w₄)
  have hdisk₄ : withNoChild (w₄.disk less) = withNoChild zeroed := by
    rw [hw₄, World.setBlock_disk, Function.update_self, hb₄, withNoChild_write_child]
  have hset (b : Block) : w₄.setBlock less b = w₃.setBlock less b := by simp [hw₄]
  rw [hdisk₄, hset, hset] at hinsert
  rw [run_bind_of_ok hback, run_bind_of_ok (by rw [run_bugOn, if_neg (by decide)])]
  by_cases hbig : 1620 ≤ w.bSize
  · rw [if_pos (show 1620 ≤ w₄.bSize from hbig)] at hinsert
    set w₅ := w₃.setBlock less (withFirstEntry (withNoChild zeroed) bubble.entry bubble.greater)
    have hlen₅ : nodeLength (w₅.disk less) = 1 := by simp [w₅]
    have hrunLength : (bnodeLength less).run w₅ = .ok 1 w₅ := by
      rw [run_bnodeLength (by omega), hlen₅]
    have hrunChildLength : (bnodeChildLength less).run w₅ = .ok 2 w₅ := by
      rw [bnodeChildLength, run_bind_of_ok hrunLength]
      rfl
    have hrunIsEmpty : (bnodeIsEmpty less).run w₅ = .ok false w₅ := by
      rw [bnodeIsEmpty, run_bind_of_ok hrunLength]
      rfl
    refine .inl ⟨hbig, (w₅.addEvent (.dirty less)).addEvent (.brelse less),
      trans_of OnlyLogs (hlogs _) ⟨[.brelse less, .dirty less], rfl⟩, rfl, ?_⟩
    rw [bnodeBinInsertB, run_bind_of_ok hinsert,
      run_bind_of_ok (by rw [run_bugOn, if_neg (by simp)]),
      run_bind_of_ok hrunLength, run_bind_of_ok (by rw [run_bugOn, if_neg (by decide)]),
      run_bind_of_ok hrunChildLength, run_bind_of_ok (by rw [run_bugOn, if_neg (by decide)]),
      run_bind_of_ok hrunIsEmpty, run_bind_of_ok (by rw [run_bugOn, if_neg (by decide)])]
    rfl
  · rw [if_neg (show ¬ 1620 ≤ w₄.bSize from hbig)] at hinsert
    refine .inr ⟨by omega, withEntry (withNoChild zeroed) bubble.entry, _, by simp, hlogs _, ?_⟩
    rw [bnodeBinInsertB, run_bind_of_error hinsert]

/-! ## What the new root is for -/

/-- The block holds a node with one entry between two children. -/
def IsRootOver (b : Block) (e : Bentry) (less greater : ℕ) : Prop :=
  entriesOf b = [e] ∧ childrenOf b = [less, greater]

/-- The tree starts at the block `root`, which holds the entry of the bubble between the
old root and the child of the bubble, and the old root is what it was. -/
structure GrowsRoot (w w' : World) (bubble : BtreeBubble) (root : ℕ) : Prop where
  start : w'.sbi.tree.start = root
  node : IsRootOver (w'.disk root) bubble.entry w.sbi.tree.start bubble.greater
  old : w'.disk w.sbi.tree.start = w.disk w.sbi.tree.start

/-- The root grows as it should exactly when both blocks hold the right nodes
beforehand, the allocated one the new root and the old one the node that the call is
going to build there. -/
theorem bnodeAllocRoot_growsRoot_iff
    (halloc : spfsFreeAlloc w.sbi.freeList w.sbi.tree.blocks = (root, fl)) (hroot : root ≠ 0)
    (hio : env.ioOk (w.time + 1) w.sbi.tree.start = true) :
    (∃ res w', (bnodeAllocRoot env bubble).run w = .ok res w' ∧ GrowsRoot w w' bubble root) ↔
    1620 ≤ w.bSize ∧ IsRootOver (w.disk root) bubble.entry w.sbi.tree.start bubble.greater ∧
      w.disk w.sbi.tree.start = grownRoot w.bSize (w.disk w.sbi.tree.start) bubble := by
  rcases run_bnodeAllocRoot env bubble halloc hroot hio with
    ⟨hbig, w₁, hlogs, -, hrun⟩ | ⟨hsmall, b, w₁, -, -, hrun⟩
  case inr =>
    rw [hrun]
    constructor
    · rintro ⟨res, w', hok, -⟩
      cases hok
    · rintro ⟨hbig, -⟩
      omega
  have hdisk : w₁.disk = Function.update w.disk w.sbi.tree.start
      (grownRoot w.bSize (w.disk w.sbi.tree.start) bubble) := hlogs.disk
  rw [hrun]
  constructor
  · rintro ⟨res, w', hok, hgrows⟩
    cases hok
    have hold : w.disk w.sbi.tree.start = grownRoot w.bSize (w.disk w.sbi.tree.start) bubble := by
      have hold := hgrows.old
      rw [hdisk, Function.update_self] at hold
      exact hold.symm
    rw [← hold, Function.update_eq_self] at hdisk
    refine ⟨hbig, ?_, hold⟩
    rw [← hdisk]
    exact hgrows.node
  · rintro ⟨-, hnode, hold⟩
    rw [← hold, Function.update_eq_self] at hdisk
    refine ⟨0, w₁, rfl, ?_, ?_, ?_⟩
    · rw [hlogs.sbi]
      rfl
    · rw [hdisk]
      exact hnode
    · rw [hdisk]

/-- The first block that a fresh device gives away. -/
theorem spfsFreeAlloc_fresh :
    spfsFreeAlloc freshWorld.sbi.freeList freshWorld.sbi.tree.blocks = (101, ⟨99, [⟨2, 99⟩]⟩) := by
  decide

theorem bnodeAllocRoot_growsRoot_iff_fresh :
    (∃ res w', (bnodeAllocRoot (.calm 9) (bubbleMake 1 8 0)).run freshWorld = .ok res w' ∧
      GrowsRoot freshWorld w' (bubbleMake 1 8 0) 101) ↔
    1620 ≤ freshWorld.bSize ∧
      IsRootOver (freshWorld.disk 101) (bubbleMake 1 8 0).entry 0 (bubbleMake 1 8 0).greater ∧
      freshWorld.disk 0 = grownRoot freshWorld.bSize (freshWorld.disk 0) (bubbleMake 1 8 0) :=
  bnodeAllocRoot_growsRoot_iff spfsFreeAlloc_fresh (by decide) rfl

/-- The first root costs the device its super block. -/
theorem not_growsRoot_fresh :
    freshWorld.sbi.tree.start = 0 ∧ bubbleIsActive (bubbleMake 1 8 0) = true ∧
      ¬ ∃ res w', (bnodeAllocRoot (.calm 9) (bubbleMake 1 8 0)).run freshWorld = .ok res w' ∧
        GrowsRoot freshWorld w' (bubbleMake 1 8 0) 101 := by
  refine ⟨rfl, by decide, ?_⟩
  rintro ⟨res, w', hok, hgrows⟩
  rcases run_bnodeAllocRoot (.calm 9) (bubbleMake 1 8 0) spfsFreeAlloc_fresh (by decide) rfl with
    ⟨-, w₁, hlogs, -, hrun⟩ | ⟨hsmall, -⟩
  · rw [hrun] at hok
    cases hok
    have hlen : nodeLength (freshWorld.disk 0) = 1 := by
      have hold : w'.disk 0 = freshWorld.disk 0 := hgrows.old
      rw [← hold, hlogs.disk]
      simp [regrown, grownRoot, show freshWorld.sbi.tree.start = 0 from rfl]
    exact absurd hlen (by decide)
  · exact absurd hsmall (by decide)

end AllocRoot

end Spfs
