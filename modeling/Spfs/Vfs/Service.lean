-- SUMMARY: The frame calculus for all calls: what creating, adding and writing can do to the state in single steps.
import Spfs.Vfs.Reading

/-!
# Calls that write

`Service` adds to the steps of the reading calls those of the others: blocks are handed
out, written and marked as dirty, the tree gets a root, and the next inode its number.
-/

namespace Spfs

open EStateM (Within)

/-- A relation that allows each step by which a call changes the state. Blocks are handed
out by `spfs_free_alloc` only, and the tree gets no root that is not a sector. -/
class Service (R : World → World → Prop) : Prop extends Reading R where
  dirty : ∀ w s, R w (w.addEvent (.dirty s))
  freeAlloc : ∀ blocks, Within R (freeAlloc blocks)
  setBlock : ∀ w s b, R w (w.setBlock s b)
  setTreeStart : ∀ w s, s ≠ 0 → R w (w.setTreeStart s)
  setId : ∀ w id, R w (w.setId id)

/-- A relation that allows a block to be written. -/
class WritesBlock (s : ℕ) (R : World → World → Prop) : Prop where
  setBlock : ∀ w b, R w (w.setBlock s b)

instance {R : World → World → Prop} [Service R] (s : ℕ) : WritesBlock s R := ⟨fun w b => Service.setBlock w s b⟩

/-! ### One block -/

section Block

variable {R : World → World → Prop} [Reading R] (s : ℕ) [WritesBlock s R]

omit [Reading R] in
theorem makeBuf_service {α : Type} (pos : ℕ) (m : ℕ → EStateM Fault Buf α) : Within R (makeBuf s pos m) :=
  within_makeBuf s pos m fun w => WritesBlock.setBlock w _

theorem memWrite_service (off : ℕ) (l : List UInt8) : Within R (memWrite s off l) := by
  intro w
  by_cases h : off + l.length ≤ w.bSize
  · rw [run_memWrite h]
    exact WritesBlock.setBlock w _
  · rw [run_memWrite_oob h]
    exact refl_of R w

theorem bnodeMake_service : Within R (bnodeMake s) :=
  Within.get.bind fun _ => memWrite_service s 0 _

theorem bnodeSetLength_service (length : ℕ) : Within R (bnodeSetLength s length) := by
  unfold bnodeSetLength
  exact (within_bugOn _).bind fun _ => (memWrite_service s _ _).bind fun _ => Within.pure _

theorem bnodeSetChild_service (index child : ℕ) : Within R (bnodeSetChild s index child) :=
  memWrite_service s _ _

theorem bnodeInsertAt_service (gte : ℕ) (in_ : EntryPtr) (bubble : BtreeBubble) (gt : ℕ) :
    Within R (bnodeInsertAt s gte in_ bubble gt) := by
  unfold bnodeInsertAt
  refine (within_bugOn _).bind fun _ => (bnodeLength_reading s).bind fun length => ?_
  refine ((memRead_reading s _ _).bind fun _ => memWrite_service s _ _).bind fun _ => ?_
  refine (entryPtrLoad_reading bubble in_).bind fun e => (memWrite_service s _ _).bind fun _ => ?_
  refine (bnodeSetLength_service s _).bind fun length => (bnodeSetChild_service s _ _).bind fun _ => ?_
  exact (bnodeLength_reading s).bind fun _ => within_bugOn _

theorem bnodeBinInsert_service (in_ : EntryPtr) (bubble : BtreeBubble) (gt : ℕ) :
    Within R (bnodeBinInsert s in_ bubble gt) := by
  have hplace : Within R (do
      let gte ← bnodeFindPlace s in_ bubble
      bnodeInsertAt s gte in_ bubble gt
      return some gte : Kernel (Option ℕ)) := by
    refine (bnodeFindPlace_reading s in_ bubble).bind fun gte => ?_
    exact (bnodeInsertAt_service s gte in_ bubble gt).bind fun _ => Within.pure _
  unfold bnodeBinInsert
  refine (bnodeIsFull_reading s).bind fun full => Within.ite (fun _ => Within.pure _) fun _ => ?_
  refine (bnodeChildLength_reading s).bind fun length => Within.ite (fun _ => ?_) fun _ => ?_
  · exact (bnodeSetChild_service s 0 0).bind fun _ => hplace
  · exact hplace

theorem spfsDirWriteChild_service (start idx child : ℕ) : Within R (spfsDirWriteChild s start idx child) := by
  unfold spfsDirWriteChild
  refine Within.get.bind fun w => (within_spfsSbRemaining _ _).bind fun remaining => ?_
  refine Within.ite (fun _ => Within.pure _) fun _ => (makeBuf_service s _ _).bind fun r => ?_
  exact Within.ite (fun _ => Within.pure _) fun _ => Within.pure _

theorem spfsDoWrite_service (bhPos : ℕ) (rest : WriteRest) : Within R (spfsDoWrite s bhPos rest) := by
  unfold spfsDoWrite
  refine Within.get.bind fun w => (within_spfsSbRemaining _ _).bind fun remaining => ?_
  refine Within.ite (fun _ => ?_) fun _ => Within.pure _
  refine (within_spfsSbRemaining _ _).bind fun remaining' => ?_
  exact Within.bind (Within.modify fun w => WritesBlock.setBlock w _) fun _ => Within.pure _

end Block

section Service

variable {R : World → World → Prop} [Service R] (env : Env)

theorem markBufferDirty_service (s : ℕ) : Within R (markBufferDirty s) := fun w => Service.dirty w s

/-! ### Insertion into the tree -/

theorem bnodePartitionMove_service (from_ to_ i : ℕ) (bubble : BtreeBubble) :
    Within R (bnodePartitionMove from_ to_ i bubble) := by
  unfold bnodePartitionMove
  refine (bnodeGetChild_reading from_ _).bind fun srcGt => ?_
  exact (bnodeBinInsert_service to_ _ bubble srcGt).bind fun _ => within_bugOn _

theorem bnodePartitionBehind_service (from_ to_ : ℕ) (bubble : BtreeBubble) (n i drop : ℕ) :
    Within R (bnodePartitionBehind from_ to_ bubble n i drop) := by
  induction n generalizing i drop with
  | zero => exact Within.pure _
  | succ n ih =>
    unfold bnodePartitionBehind
    refine (bnodeLength_reading from_).bind fun length => Within.ite (fun _ => ?_) fun _ => Within.pure _
    exact (bnodePartitionMove_service from_ to_ i bubble).bind fun _ => ih _ _

theorem bnodePartitionGreater_service (from_ to_ : ℕ) (pivot : EntryPtr) (bubble : BtreeBubble)
    (n i : ℕ) (move : Bool) (drop : ℕ) :
    Within R (bnodePartitionGreater from_ to_ pivot bubble n i move drop) := by
  induction n generalizing i move drop with
  | zero => exact Within.pure _
  | succ n ih =>
    unfold bnodePartitionGreater
    refine (bnodeLength_reading from_).bind fun length => Within.ite (fun _ => ?_) fun _ => Within.pure _
    refine (bentryId_reading from_ _).bind fun id => (entryPtrId_reading bubble pivot).bind fun pid => ?_
    refine Within.ite (fun _ => ?_) fun _ => (within_bugOn _).bind fun _ => ih _ _ _
    exact (bnodePartitionMove_service from_ to_ i bubble).bind fun _ => ih _ _ _

theorem bnodePartition_service (from_ : ℕ) (pivot : EntryPtr) (to_ : ℕ) (bubble : BtreeBubble) :
    Within R (bnodePartition from_ pivot to_ bubble) := by
  have hshorten (drop : ℕ) : Within R (do
      let length ← bnodeLength from_
      bugOn (drop > length)
      let _ ← bnodeSetLength from_ (length - drop) : Kernel Unit) := by
    refine (bnodeLength_reading from_).bind fun length => (within_bugOn _).bind fun _ => ?_
    exact (bnodeSetLength_service from_ _).bind fun _ => Within.pure _
  unfold bnodePartition
  refine Within.ite (fun _ => ?_) fun _ => ?_
  · exact (bnodePartitionBehind_service from_ to_ bubble _ _ _).bind hshorten
  · refine (bnodePartitionGreater_service from_ to_ pivot bubble _ _ _ _).bind fun r => ?_
    exact (within_bugOn _).bind fun _ => hshorten _

theorem bnodeExtract_service (s : ℕ) (needle : EntryPtr) (bubble : BtreeBubble) (right : ℕ) :
    Within R (bnodeExtract s needle bubble right) := by
  unfold bnodeExtract
  refine (bnodeLength_reading s).bind fun length => (within_bugOn _).bind fun _ => ?_
  refine (within_bugOn _).bind fun _ => (bentryLoad_reading s _).bind fun entry => ?_
  refine (bnodeGetChild_reading s _).bind fun gt => (bnodeSetLength_service s _).bind fun _ => ?_
  refine (bnodeIsEmpty_reading right).bind fun empty => (within_bugOn _).bind fun _ => ?_
  refine (bnodeGetChild_reading right 0).bind fun child => (within_bugOn _).bind fun _ => ?_
  exact (bnodeSetChild_service right 0 gt).bind fun _ => Within.pure _

theorem bubbleBack_service (right : ℕ) (bubble : BtreeBubble) : Within R (do
    markBufferDirty right
    brelse right
    return (0, { bubble with greater := right }) : Kernel (ℤ × BtreeBubble)) :=
  (markBufferDirty_service right).bind fun _ => (brelse_reading right).bind fun _ => Within.pure _

theorem btreeFixup_service (s : ℕ) (bubble : BtreeBubble) : Within R (btreeFixup env s bubble) := by
  unfold btreeFixup
  refine (within_bugOn _).bind fun _ => (bnodeIsFull_reading s).bind fun full => Within.ite (fun _ => ?_) fun _ => ?_
  · exact (bnodeBinInsert_service s _ _ _).bind fun res => (within_bugOn _).bind fun _ => Within.pure _
  refine (bnodeMedian_reading s bubble).bind fun med => Within.get.bind fun w => ?_
  refine (Service.freeAlloc _).bind fun right => (within_bugOn _).bind fun _ => ?_
  refine (sbBread_reading env right).bind fun ok => Within.ite (fun _ => Within.pure _) fun _ => ?_
  refine (bnodeMake_service right).bind fun _ => (bnodePartition_service s med right bubble).bind fun _ => ?_
  refine Within.ite (fun _ => ?_) fun _ => ?_
  · refine (entryPtrId_reading bubble med).bind fun id => Within.ite (fun _ => ?_) fun _ => ?_
    · refine (bnodeBinInsert_service right _ _ _).bind fun res => (within_bugOn _).bind fun _ => ?_
      exact (bnodeExtract_service s med bubble right).bind fun bubble => bubbleBack_service right bubble
    · refine (bnodeBinInsert_service s _ _ _).bind fun res => (within_bugOn _).bind fun _ => ?_
      exact (bnodeExtract_service s med bubble right).bind fun bubble => bubbleBack_service right bubble
  · refine (bnodeGetChild_reading right 0).bind fun child => (within_bugOn _).bind fun _ => ?_
    exact (bnodeSetChild_service right 0 _).bind fun _ => bubbleBack_service right bubble

theorem btreeInsertNew_service (in_ : SpfsInode) : Within R (btreeInsertNew env in_) := by
  unfold btreeInsertNew
  refine Within.get.bind fun w => (Service.freeAlloc _).bind fun page => Within.ite (fun _ => Within.pure _) fun _ => ?_
  refine (sbBread_reading env page).bind fun ok => Within.ite (fun _ => Within.pure _) fun _ => ?_
  refine Within.get.bind fun w => (makeBuf_service page 0 _).bind fun r => ?_
  refine Within.ite (fun _ => Within.pure _) fun _ => ?_
  exact (markBufferDirty_service page).bind fun _ => (brelse_reading page).bind fun _ => Within.pure _

theorem btreeInsertChild_service {descend : ℕ → Kernel InsertResult} (hdescend : ∀ s, Within R (descend s))
    (s child : ℕ) : Within R (btreeInsertChild env descend s child) := by
  unfold btreeInsertChild
  refine (sbBread_reading env child).bind fun ok => Within.ite (fun _ => Within.pure _) fun _ => ?_
  refine (hdescend child).bind fun r => (markBufferDirty_service child).bind fun _ => ?_
  refine (brelse_reading child).bind fun _ => Within.ite (fun _ => ?_) fun _ => Within.pure _
  exact (btreeFixup_service env s r.bubble).bind fun _ => Within.pure _

theorem btreeInsertNode_service {descend : ℕ → Kernel InsertResult} (hdescend : ∀ s, Within R (descend s))
    (in_ : SpfsInode) (s : ℕ) : Within R (btreeInsertNode env descend in_ s) := by
  unfold btreeInsertNode
  refine (bnodeBinFindGte_reading s _).bind fun gte => ?_
  cases gte with
  | some gte =>
    refine (bentryId_reading s gte).bind fun id => Within.ite (fun _ => ?_) fun _ => ?_
    · exact (bentryOffset_reading s gte).bind fun _ => Within.pure _
    · refine (within_bugOn _).bind fun _ => (bnodeGetChild_reading s _).bind fun child => ?_
      exact btreeInsertChild_service env hdescend s child
  | none =>
    refine (bnodeChildLength_reading s).bind fun _ => (within_bugOn _).bind fun _ => ?_
    refine (bnodeLength_reading s).bind fun _ => (within_bugOn _).bind fun _ => ?_
    refine (bnodeIsEmpty_reading s).bind fun _ => (within_bugOn _).bind fun _ => ?_
    refine (bnodeLength_reading s).bind fun length => (bnodeGetChild_reading s length).bind fun child => ?_
    exact btreeInsertChild_service env hdescend s child

theorem btreeInsert_service (in_ : SpfsInode) (levels s : ℕ) : Within R (btreeInsert env in_ levels s) := by
  induction levels generalizing s with
  | zero => exact btreeInsertNode_service env (fun _ => Within.throw _) in_ s
  | succ levels ih => exact btreeInsertNode_service env ih in_ s

theorem bnodeAllocRoot_service (bubble : BtreeBubble) : Within R (bnodeAllocRoot env bubble) := by
  unfold bnodeAllocRoot
  refine Within.get.bind fun w => Within.get.bind fun w' => (Service.freeAlloc _).bind fun root => ?_
  refine Within.ite (fun _ => Within.pure _) fun hroot => ?_
  refine (sbBread_reading env _).bind fun ok => Within.ite (fun _ => Within.pure _) fun _ => ?_
  refine (bnodeMake_service _).bind fun _ => Within.bind (fun w => Service.setTreeStart w root hroot) fun _ => ?_
  refine ((bnodeLength_reading _).bind fun length => (memWrite_service _ _ _).bind fun _ => Within.pure _).bind
    fun res => ?_
  refine (within_bugOn _).bind fun _ => (bnodeBinInsert_service _ _ _ _).bind fun ires => ?_
  refine (within_bugOn _).bind fun _ => (bnodeLength_reading _).bind fun _ => (within_bugOn _).bind fun _ => ?_
  refine (bnodeChildLength_reading _).bind fun _ => (within_bugOn _).bind fun _ => ?_
  refine (bnodeIsEmpty_reading _).bind fun _ => (within_bugOn _).bind fun _ => ?_
  exact (markBufferDirty_service _).bind fun _ => (brelse_reading _).bind fun _ => Within.pure _

theorem spfsBtreeInsert_service (in_ : SpfsInode) : Within R (spfsBtreeInsert env in_) := by
  have hroot (r : InsertResult) : Within R (spfsBtreeInsert.insertRoot env r) := by
    unfold spfsBtreeInsert.insertRoot
    refine Within.ite (fun _ => ?_) fun _ => Within.pure _
    exact (bnodeAllocRoot_service env _).bind fun nres => (within_bugOn _).bind fun _ => Within.pure _
  unfold spfsBtreeInsert
  refine Within.get.bind fun w => Within.ite (fun _ => ?_) fun _ => ?_
  · refine (sbBread_reading env _).bind fun ok => Within.ite (fun _ => Within.pure _) fun _ => ?_
    refine (btreeInsert_service env in_ _ _).bind fun r => (markBufferDirty_service _).bind fun _ => ?_
    exact (brelse_reading _).bind fun _ => hroot r
  · exact (btreeInsertNew_service env in_).bind hroot

/-! ### The walk to a record -/

theorem btreeVisitEntry_service {γ : Type} (closure : γ) (cb : BtreeModifyCb γ) (offset : ℕ) :
    Within R (btreeVisitEntry env closure cb offset) := by
  unfold btreeVisitEntry
  refine Within.ite (fun _ => Within.pure _) fun _ => ?_
  refine (sbBread_reading env offset).bind fun ok => Within.ite (fun _ => Within.pure _) fun _ => ?_
  refine Within.get.bind fun w => (within_parseBuf offset 0 _).bind fun r => ?_
  rcases r with ⟨res | cur, pos⟩
  · exact (brelse_reading offset).bind fun _ => Within.pure _
  dsimp only
  split
  · exact Within.throw _
  · refine Within.ite (fun _ => ?_) fun _ => (brelse_reading offset).bind fun _ => Within.pure _
    refine Within.get.bind fun w => (makeBuf_service offset 0 _).bind fun _ => ?_
    exact (markBufferDirty_service offset).bind fun _ => (brelse_reading offset).bind fun _ => Within.pure _

theorem spfsBtreeModify_service {γ : Type} (ino : ℕ) (closure : γ) (cb : BtreeModifyCb γ) :
    Within R (spfsBtreeModify env ino closure cb) :=
  spfsBtreeModify_reading env (btreeVisitEntry_service env closure cb) ino

theorem spfsWriteInode_service (p : ℕ) : Within R (spfsWriteInode env p) := by
  unfold spfsWriteInode
  refine (within_getInode p).bind fun i => (within_superOf i).bind fun _ => ?_
  exact (spfsBtreeModify_service env _ _ _).bind fun r => Within.pure _

/-! ### Directories -/

theorem addToBlock_service (s bhPos : ℕ) (block : DirBlock) (child : ℕ) :
    Within R (addToBlock s bhPos block child) := by
  unfold addToBlock
  exact (spfsDirWriteChild_service s _ _ _).bind fun _ => (makeBuf_service s 0 _).bind fun _ =>
    markBufferDirty_service s

theorem spfsDirBlockAlloc_service : Within R (spfsDirBlockAlloc env) := by
  unfold spfsDirBlockAlloc
  refine (Service.freeAlloc 1).bind fun result => Within.ite (fun _ => ?_) fun _ => Within.pure _
  refine (sbBread_reading env result).bind fun ok => Within.ite (fun _ => Within.pure _) fun _ => ?_
  exact (makeBuf_service result 0 _).bind fun r => Within.ite (fun _ => Within.pure _) fun _ => Within.pure _

theorem spfsAddChildLit_service (p child fuel start : ℕ) : Within R (spfsAddChildLit env p child fuel start) := by
  have hfirst (fuel : ℕ) : Within R (spfsAddChildLit env p child fuel 0) := by
    rw [spfsAddChildLit]
    refine (spfsDirBlockAlloc_service env).bind fun r => (modifyInode_reading p _).bind fun _ => ?_
    refine Within.ite (fun _ => Within.pure _) fun _ => (addToBlock_service _ _ _ _).bind fun _ => ?_
    exact (brelse_reading _).bind fun _ => Within.pure _
  induction fuel generalizing start with
  | zero =>
    cases start with
    | zero => exact hfirst 0
    | succ start => exact Within.throw _
  | succ fuel ih =>
    cases start with
    | zero => exact hfirst (fuel + 1)
    | succ start =>
      unfold spfsAddChildLit
      refine (sbBread_reading env _).bind fun ok => Within.ite (fun _ => Within.pure _) fun _ => ?_
      refine (within_parseBuf _ _ _).bind fun r => ?_
      rcases r with ⟨_ | block, bhPos⟩
      · exact Within.pure _
      refine Within.ite (fun _ => ?_) fun _ => (brelse_reading _).bind fun _ => ih _
      exact (addToBlock_service _ _ _ _).bind fun _ => (brelse_reading _).bind fun _ => Within.pure _

theorem spfsAddChild_service (p child : ℕ) : Within R (spfsAddChild env p child) := by
  unfold spfsAddChild
  refine (mutexLock_reading p).bind fun _ => (modifyInode_reading p _).bind fun _ => ?_
  refine (modifyInode_reading p _).bind fun _ => (within_getInode p).bind fun parent => ?_
  refine (spfsAddChildLit_service env p child _ _).bind fun res => ?_
  exact (mutexUnlock_reading p).bind fun _ => Within.pure _

theorem createOp_service (op : CreateOp) (parent : ℕ) (dentry : Dentry) (mode : ℕ) :
    Within R (op.run env parent dentry mode) :=
  createOp_reading env Service.setId (spfsBtreeInsert_service env) (spfsAddChild_service env parent) op dentry mode

/-! ### Files -/

theorem spfsWriteFileExtentBlocks_service (n it : ℕ) (e : ExtentWrite) :
    Within R (spfsWriteFileExtentBlocks env n it e) := by
  induction n generalizing it e with
  | zero => exact Within.pure _
  | succ n ih =>
    unfold spfsWriteFileExtentBlocks
    refine Within.ite (fun _ => Within.pure _) fun _ => Within.get.bind fun w => ?_
    refine Within.ite (fun _ => ?_) fun _ => ?_
    · refine (sbBread_reading env it).bind fun ok => Within.ite (fun _ => Within.pure _) fun _ => ?_
      refine (spfsDoWrite_service it 0 e.rest).bind fun r => ?_
      refine Within.ite (fun _ => (markBufferDirty_service _).bind fun _ => ?_) fun _ => ?_
      all_goals exact (brelse_reading it).bind fun _ => ih _ _
    · exact Within.get.bind fun w' => (within_bugOn _).bind fun _ => ih _ _

theorem spfsWriteFileExtent_service (s : ℕ) (rest : WriteRest) (extra : ℕ) :
    Within R (spfsWriteFileExtent env s rest extra) := by
  unfold spfsWriteFileExtent
  refine (sbBread_reading env s).bind fun ok => Within.ite (fun _ => Within.pure _) fun _ => ?_
  refine (within_parseBuf _ _ _).bind fun r => ?_
  rcases r with ⟨_ | header, headPos⟩
  · exact Within.pure _
  refine (spfsDoWrite_service s _ _).bind fun r => (spfsWriteFileExtentBlocks_service env _ _ _).bind fun r => ?_
  rcases r with _ | e
  · exact Within.pure _
  refine Within.ite (fun _ => ?_) fun _ => (brelse_reading s).bind fun _ => Within.pure _
  exact (makeBuf_service s _ _).bind fun r => (within_bugOn _).bind fun _ =>
    (markBufferDirty_service _).bind fun _ => (brelse_reading s).bind fun _ => Within.pure _

theorem spfsWriteLit_service (fuel start : ℕ) (rest : WriteRest) (extra : ℕ) (written : ℤ) :
    Within R (spfsWriteLit env fuel start rest extra written) := by
  induction fuel generalizing start rest extra written with
  | zero =>
    cases start with
    | zero => exact Within.pure _
    | succ start => exact Within.throw _
  | succ fuel ih =>
    cases start with
    | zero => exact Within.pure _
    | succ start =>
      refine (spfsWriteFileExtent_service env _ _ _).bind fun r => ?_
      refine Within.ite (fun _ => Within.pure _) fun _ => ?_
      exact Within.ite (fun _ => ih _ _ _ _) fun _ => Within.pure _

theorem spfsFileExtentAlloc_service (blocks : ℕ) : Within R (spfsFileExtentAlloc env blocks) := by
  unfold spfsFileExtentAlloc
  refine (Service.freeAlloc blocks).bind fun result => Within.ite (fun _ => ?_) fun _ => Within.pure _
  refine (sbBread_reading env _).bind fun ok => (within_bugOn _).bind fun _ => ?_
  refine (makeBuf_service result _ _).bind fun r => Within.ite (fun _ => Within.pure _) fun _ => ?_
  exact (markBufferDirty_service _).bind fun _ => (brelse_reading _).bind fun _ => Within.pure _

theorem spfsEnsureCapacity_service (p inPos inLen : ℕ) : Within R (spfsEnsureCapacity env p inPos inLen) := by
  unfold spfsEnsureCapacity
  refine (within_getInode p).bind fun inode => (within_followSb inode).bind fun sbi => ?_
  refine Within.ite (fun _ => Within.pure _) fun _ => ?_
  refine (spfsFileExtentAlloc_service env _).bind fun extra => Within.ite (fun _ => Within.pure _) fun _ => ?_
  have hbytes : Within R (spfsFileExtentDataBytes sbi
      (spfsCalcExtraBlocks sbi.blockSize inode.capacity inPos inLen)) :=
    (within_bugOn _).bind fun _ => Within.pure _
  refine (modifyInode_reading p _).bind fun _ => hbytes.bind fun bytes => (modifyInode_reading p _).bind fun _ => ?_
  exact (within_getInode p).bind fun inode => (spfsBtreeModify_service env _ _ _).bind fun r => Within.pure _

theorem spfsWrite_service (p : ℕ) (inBuf : List UInt8) (ppos : ℕ) : Within R (spfsWrite env p inBuf ppos) := by
  unfold spfsWrite
  refine Within.ite (fun _ => Within.pure _) fun _ => (within_getInode p).bind fun inode => ?_
  refine Within.ite (fun _ => Within.pure _) fun _ => (mutexLockInterruptible_reading env p).bind fun intr => ?_
  refine Within.ite (fun _ => Within.pure _) fun _ => (spfsEnsureCapacity_service env p _ _).bind fun r => ?_
  refine Within.ite (fun _ => Within.pure _) fun _ => (within_getInode p).bind fun inode => ?_
  refine (spfsWriteLit_service env _ _ _ _ _).bind fun r => ?_
  rcases r with res | ⟨written, rest, extra⟩
  · exact Within.pure _
  exact (within_bugOn _).bind fun _ => (within_bugOn _).bind fun _ =>
    (modifyInode_reading p _).bind fun _ => (mutexUnlock_reading p).bind fun _ => Within.pure _

end Service

end Spfs
