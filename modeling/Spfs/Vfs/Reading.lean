-- SUMMARY: The frame calculus for the calls that only read: lookups, directories and files read, inodes dropped.
import Spfs.Dir.Iterate
import Spfs.File.Frame
import Spfs.Namespace

/-!
# Calls that read

Whatever is looked up or read, the calls change the state in two ways only: they log what
they ask the kernel for, and they move objects in and out of the inode cache. A relation
that allows both (`Reading`) holds over all of them.
-/

namespace Spfs

open EStateM (Within)

/-- The events that change the device: a block is handed out, or a buffer is to be written. -/
def Event.writes : Event → Bool
  | .alloc _ _ | .dirty _ => true
  | _ => false

/-- A relation that does not look at events that only read. -/
class IgnoresReads (R : World → World → Prop) : Prop extends IsPreorder World R where
  addEvent : ∀ w e, e.writes = false → R w (w.addEvent e)

/-- A relation that looks neither at the cache nor at events that only read. -/
class Reading (R : World → World → Prop) : Prop extends IgnoresReads R where
  cache : ∀ (w : World) inodes slab, R w { w with inodes := inodes, slab := slab }

section Events

variable {R : World → World → Prop} [IgnoresReads R] (env : Env)

theorem emit_reading {e : Event} (he : e.writes = false) : Within R (emit e) :=
  fun w => IgnoresReads.addEvent w e he

theorem sbBread_reading (s : ℕ) : Within R (sbBread env s) :=
  fun w => IgnoresReads.addEvent w _ rfl

theorem brelse_reading (s : ℕ) : Within R (brelse s) := emit_reading rfl

theorem spfsInodeByNameCb_reading (name : List UInt8) (result child : Option ℕ) :
    Within R (spfsInodeByNameCb name result child) := by
  unfold spfsInodeByNameCb
  cases child with
  | none => exact Within.throw _
  | some child =>
    refine (within_getInode child).bind fun i => ?_
    split
    · exact Within.throw _
    · exact Within.pure _
    · exact Within.pure _

section Traversal

variable {γ : Type} {f : ForAllCb γ} (hid : ∀ id, Within R (spfsInodeById env id))
  (hf : ∀ closure child, Within R (f closure child))

include hid hf

theorem spfsForAllChildrenWhile_reading (s children n i bhPos : ℕ) (closure : γ) :
    Within R (spfsForAllChildrenWhile env f s children n i bhPos closure) := by
  induction n generalizing i bhPos closure with
  | zero => exact Within.throw _
  | succ n ih =>
    unfold spfsForAllChildrenWhile
    refine Within.ite (fun _ => ?_) fun _ => Within.pure _
    refine (within_parseBuf s bhPos _).bind fun r => ?_
    rcases r with ⟨_ | curIno, pos⟩
    · exact Within.pure _
    refine Within.ite (fun _ => ih _ _ _) fun _ => (hid curIno).bind fun child => ?_
    cases child with
    | error e => exact ih _ _ _
    | ok child =>
      refine (hf closure child).bind fun r => Within.ite (fun _ => ?_) fun _ => ih _ _ _
      exact (brelse_reading s).bind fun _ => Within.pure _

theorem spfsForAllChildrenLit_reading (fuel childList : ℕ) (closure : γ) :
    Within R (spfsForAllChildrenLit env f fuel childList closure) := by
  induction fuel generalizing childList closure with
  | zero =>
    cases childList with
    | zero => exact Within.pure _
    | succ childList => exact Within.throw _
  | succ fuel ih =>
    cases childList with
    | zero => exact Within.pure _
    | succ childList =>
      unfold spfsForAllChildrenLit
      refine (sbBread_reading env _).bind fun ok => Within.ite (fun _ => Within.pure _) fun _ => ?_
      refine (within_parseBuf _ 0 _).bind fun r => ?_
      rcases r with ⟨_ | block, bhPos⟩
      · exact Within.pure _
      refine Within.get.bind fun w => ?_
      refine (spfsForAllChildrenWhile_reading env hid hf _ _ _ _ _ closure).bind fun r => ?_
      rcases r with ⟨_ | res, closure⟩
      · exact (brelse_reading _).bind fun _ => ih _ _
      · exact Within.pure _

theorem spfsForAllChildren_within {p : ℕ} (hlock : Within R (mutexLock p)) (hunlock : Within R (mutexUnlock p))
    (closure : γ) : Within R (spfsForAllChildren env f p closure) := by
  unfold spfsForAllChildren
  refine (within_getInode p).bind fun parent => (within_superOf parent).bind fun _ => ?_
  refine Within.ite (fun _ => Within.pure _) fun _ => hlock.bind fun _ => ?_
  exact (spfsForAllChildrenLit_reading env hid hf _ _ closure).bind fun r => hunlock.bind fun _ => Within.pure _

end Traversal

end Events

section Reading

variable {R : World → World → Prop} [Reading R] (env : Env)

theorem putInode_reading (p : ℕ) (i : SpfsInode) : Within R (putInode p i) :=
  fun w => Reading.cache w _ _

theorem modifyInode_reading (p : ℕ) (f : SpfsInode → SpfsInode) : Within R (modifyInode p f) :=
  (within_getInode p).bind fun _ => putInode_reading p _

theorem mutexLock_reading (p : ℕ) : Within R (mutexLock p) := by
  unfold mutexLock
  refine (within_getInode p).bind fun i => Within.ite (fun _ => Within.throw _) fun _ => ?_
  exact (putInode_reading p _).bind fun _ => emit_reading rfl

theorem mutexLockInterruptible_reading (p : ℕ) : Within R (mutexLockInterruptible env p) := by
  unfold mutexLockInterruptible
  refine (within_getInode p).bind fun i => Within.ite (fun _ => ?_) fun _ => ?_
  · refine Within.get.bind fun w => Within.ite (fun _ => Within.pure _) fun _ => ?_
    exact Within.throw _
  · exact (putInode_reading p _).bind fun _ => (emit_reading rfl).bind fun _ => Within.pure _

theorem mutexUnlock_reading (p : ℕ) : Within R (mutexUnlock p) :=
  (modifyInode_reading p _).bind fun _ => emit_reading rfl

/-! ### Nodes -/

theorem memRead_reading (s off len : ℕ) : Within R (memRead s off len) := by
  unfold memRead
  exact Within.get.bind fun w => Within.ite (fun _ => Within.pure _) fun _ => Within.throw _

theorem bnodeLength_reading (s : ℕ) : Within R (bnodeLength s) := by
  unfold bnodeLength
  refine (memRead_reading s _ _).bind fun l => ?_
  exact (within_bugOn _).bind fun _ => Within.pure _

theorem bnodeChildLength_reading (s : ℕ) : Within R (bnodeChildLength s) :=
  (bnodeLength_reading s).bind fun _ => Within.pure _

theorem bnodeIsFull_reading (s : ℕ) : Within R (bnodeIsFull s) :=
  (bnodeLength_reading s).bind fun _ => Within.pure _

theorem bnodeIsEmpty_reading (s : ℕ) : Within R (bnodeIsEmpty s) :=
  (bnodeLength_reading s).bind fun _ => Within.pure _

theorem bnodeGetChild_reading (s index : ℕ) : Within R (bnodeGetChild s index) := by
  unfold bnodeGetChild
  refine (bnodeLength_reading s).bind fun length => (within_bugOn _).bind fun _ => ?_
  exact (memRead_reading s _ _).bind fun _ => Within.pure _

theorem bentryId_reading (s addr : ℕ) : Within R (bentryId s addr) :=
  (memRead_reading s _ _).bind fun _ => Within.pure _

theorem bentryOffset_reading (s addr : ℕ) : Within R (bentryOffset s addr) :=
  (memRead_reading s _ _).bind fun _ => Within.pure _

theorem bentryLoad_reading (s addr : ℕ) : Within R (bentryLoad s addr) := by
  unfold bentryLoad
  exact Within.get.bind fun w => Within.ite (fun _ => Within.pure _) fun _ => Within.throw _

theorem entryPtrId_reading (bubble : BtreeBubble) (ptr : EntryPtr) : Within R (ptr.id bubble) := by
  cases ptr with
  | node s addr => exact bentryId_reading s addr
  | bubble => exact Within.pure _

theorem entryPtrLoad_reading (bubble : BtreeBubble) (ptr : EntryPtr) : Within R (ptr.load bubble) := by
  cases ptr with
  | node s addr => exact bentryLoad_reading s addr
  | bubble => exact Within.pure _

theorem bnodeBinFindGteLit_reading (s needle end_ fuel it last : ℕ) :
    Within R (bnodeBinFindGteLit s needle end_ fuel it last) := by
  induction fuel generalizing it last with
  | zero => exact Within.throw _
  | succ fuel ih =>
    unfold bnodeBinFindGteLit
    refine (bentryId_reading s _).bind fun id => Within.ite (fun _ => ?_) fun _ => ?_
    · exact Within.ite (fun _ => Within.pure _) fun _ => ih _ _
    refine Within.ite (fun _ => Within.pure _) fun _ => Within.ite (fun _ => Within.pure _) fun _ => ?_
    exact ih _ _

theorem bnodeBinFindGte_reading (s needle : ℕ) : Within R (bnodeBinFindGte s needle) := by
  unfold bnodeBinFindGte
  refine (bnodeLength_reading s).bind fun length => (within_bugOn _).bind fun _ => ?_
  refine Within.ite (fun _ => Within.pure _) fun _ => Within.get.bind fun w => ?_
  exact bnodeBinFindGteLit_reading s needle _ _ _ _

theorem bnodeFindPlace_reading (s : ℕ) (in_ : EntryPtr) (bubble : BtreeBubble) :
    Within R (bnodeFindPlace s in_ bubble) := by
  unfold bnodeFindPlace
  refine (entryPtrId_reading bubble in_).bind fun needle => (bnodeBinFindGte_reading s needle).bind fun gte => ?_
  cases gte with
  | none => exact Within.pure _
  | some gte => exact (bentryId_reading s gte).bind fun _ => (within_bugOn _).bind fun _ => Within.pure _

theorem bnodeMedian_reading (s : ℕ) (bubble : BtreeBubble) : Within R (bnodeMedian s bubble) := by
  unfold bnodeMedian
  refine (bnodeIsFull_reading s).bind fun full => (within_bugOn _).bind fun _ => ?_
  refine (bnodeLength_reading s).bind fun length => (within_bugOn _).bind fun _ => ?_
  refine (bentryId_reading s _).bind fun id => Within.ite (fun _ => Within.pure _) fun _ => ?_
  exact (bentryId_reading s _).bind fun id => Within.ite (fun _ => Within.pure _) fun _ => Within.pure _

/-! ### The walk to a record -/

section Walk

variable {γ : Type} {closure : γ} {cb : BtreeModifyCb γ}

/-- A visit by a callback that leaves the record clean. -/
theorem btreeVisitEntry_reading (hcb : ∀ i closure' i' dirty, cb closure i = .ok (closure', i', dirty) → dirty = false)
    (offset : ℕ) : Within R (btreeVisitEntry env closure cb offset) := by
  unfold btreeVisitEntry
  refine Within.ite (fun _ => Within.pure _) fun _ => ?_
  refine (sbBread_reading env offset).bind fun ok => Within.ite (fun _ => Within.pure _) fun _ => ?_
  refine Within.get.bind fun w => (within_parseBuf offset 0 _).bind fun r => ?_
  rcases r with ⟨res | cur, pos⟩
  · exact (brelse_reading offset).bind fun _ => Within.pure _
  dsimp only
  split
  · exact Within.throw _
  · next hrun =>
    refine Within.ite (fun hdirty => ?_) fun _ => (brelse_reading offset).bind fun _ => Within.pure _
    rw [hcb _ _ _ _ hrun] at hdirty
    cases hdirty

/-- The walk does what the visit at its end does. -/
theorem spfsBtreeModify_reading (hvisit : ∀ offset, Within R (btreeVisitEntry env closure cb offset)) (ino : ℕ) :
    Within R (spfsBtreeModify env ino closure cb) := by
  have hlit (fuel offset : ℕ) : Within R (spfsBtreeModifyLit env ino closure cb fuel offset) := by
    induction fuel generalizing offset with
    | zero =>
      cases offset with
      | zero => exact Within.pure _
      | succ offset => exact Within.throw _
    | succ fuel ih =>
      cases offset with
      | zero => exact Within.pure _
      | succ offset =>
        unfold spfsBtreeModifyLit
        refine (sbBread_reading env _).bind fun ok => Within.ite (fun _ => Within.pure _) fun _ => ?_
        refine (bnodeBinFindGte_reading _ ino).bind fun gte => ?_
        cases gte with
        | some gte =>
          refine (bentryId_reading _ gte).bind fun id => Within.ite (fun _ => ?_) fun _ => ?_
          · refine (bentryOffset_reading _ gte).bind fun entryOffset => (brelse_reading _).bind fun _ => ?_
            exact hvisit entryOffset
          · exact (bnodeGetChild_reading _ _).bind fun next => (brelse_reading _).bind fun _ => ih next
        | none =>
          refine (bnodeLength_reading _).bind fun length => (bnodeGetChild_reading _ length).bind fun next => ?_
          exact (brelse_reading _).bind fun _ => ih next
  exact Within.get.bind fun w => hlit _ _

theorem spfsBtreeLookup_reading (ino : ℕ) (result : SpfsInode) : Within R (spfsBtreeLookup env ino result) := by
  refine spfsBtreeModify_reading env (btreeVisitEntry_reading env fun i closure' i' dirty h => ?_) ino
  cases h
  rfl

end Walk

/-! ### Inodes -/

theorem evict_reading (w : World) (p : ℕ) : R w (w.evict p) := by
  unfold World.evict
  split
  · exact Reading.cache w _ _
  · exact refl_of R w

theorem spfsAllocInode_reading : Within R (spfsAllocInode env) := by
  intro w
  rw [spfsAllocInode, EStateM.run_bind_of_ok (EStateM.run_get w)]
  split
  · exact refl_of R w
  · exact Reading.cache w w.inodes _

theorem igetLocked_reading (ino : ℕ) : Within R (igetLocked env ino) := by
  unfold igetLocked
  refine Within.get.bind fun w => ?_
  split
  · refine Within.ite (fun _ => Within.throw _) fun _ => Within.ite (fun _ => Within.throw _) fun _ => ?_
    exact (putInode_reading ino _).bind fun _ => (emit_reading rfl).bind fun _ => Within.pure _
  · refine (spfsAllocInode_reading env).bind fun obj => (emit_reading rfl).bind fun _ => ?_
    split
    · exact Within.pure _
    · exact (putInode_reading ino _).bind fun _ => Within.pure _

theorem iput_reading (p : ℕ) : Within R (iput p) := by
  unfold iput
  refine (within_getInode p).bind fun i => Within.ite (fun _ => fun w => evict_reading w p) fun _ => ?_
  exact putInode_reading p _

theorem igetFailed_reading (p : ℕ) : Within R (igetFailed env p) := by
  unfold igetFailed
  refine Within.get.bind fun w => (modifyInode_reading p _).bind fun _ => ?_
  exact (modifyInode_reading p _).bind fun _ => iput_reading p

theorem incNlink_reading (p : ℕ) : Within R (incNlink p) := by
  unfold incNlink
  refine (within_getInode p).bind fun i => Within.ite (fun _ => ?_) fun _ => putInode_reading p _
  exact (within_followSb i).bind fun _ => putInode_reading p _

theorem spfsSetupInodeFp_reading (p : ℕ) : Within R (spfsSetupInodeFp p) := by
  unfold spfsSetupInodeFp
  refine (within_getInode p).bind fun i => Within.ite (fun _ => Within.pure _) fun _ => ?_
  exact Within.ite (fun _ => incNlink_reading p) fun _ => Within.throw _

/-- How `spfs_new_inode` ends for an object that is new. -/
def setUpNewInode (env : Env) (p : ℕ) : Kernel (Except ℤ ℕ) := do
  let now := env.now (← get).time
  modifyInode p fun i => { i with iCtime := now, iAtime := now, iMtime := now }
  spfsSetupInodeFp p
  unlockNewInode p
  return .ok p

theorem setUpNewInode_reading (p : ℕ) : Within R (setUpNewInode env p) := by
  refine Within.get.bind fun w => (modifyInode_reading p _).bind fun _ => ?_
  exact (spfsSetupInodeFp_reading p).bind fun _ => (modifyInode_reading p _).bind fun _ => Within.pure _

/-- A new inode takes its number, and is otherwise a matter of the cache. -/
theorem spfsNewInode_reading (hid : ∀ w id, R w (w.setId id)) (parent : Option ℕ) (mode : ℕ) :
    Within R (spfsNewInode env parent mode) := by
  unfold spfsNewInode
  refine Within.get.bind fun w => Within.bind (fun w => hid w _) fun _ => ?_
  refine (igetLocked_reading env _).bind fun obj => ?_
  cases obj with
  | none => exact Within.pure _
  | some p =>
    refine (within_getInode p).bind fun i => Within.ite (fun _ => ?_) fun _ => ?_
    · cases parent with
      | none => exact (modifyInode_reading p _).bind fun _ => setUpNewInode_reading env p
      | some parent =>
        exact (within_getInode parent).bind fun dir =>
          (modifyInode_reading p _).bind fun _ => setUpNewInode_reading env p
    · exact (igetFailed_reading env p).bind fun _ => Within.pure _

theorem spfsInodeById_reading (needle : ℕ) : Within R (spfsInodeById env needle) := by
  unfold spfsInodeById
  refine (igetLocked_reading env needle).bind fun obj => ?_
  cases obj with
  | none => exact Within.pure _
  | some p =>
    refine (within_getInode p).bind fun result => Within.ite (fun _ => Within.pure _) fun _ => ?_
    refine (spfsBtreeLookup_reading env _ _).bind fun r => Within.ite (fun _ => ?_) fun _ => ?_
    · exact (igetFailed_reading env p).bind fun _ => Within.pure _
    · refine (putInode_reading p _).bind fun _ => (spfsSetupInodeFp_reading p).bind fun _ => ?_
      exact (modifyInode_reading p _).bind fun _ => Within.pure _

/-! ### Directories -/

theorem spfsForAllChildren_reading {γ : Type} {f : ForAllCb γ} (hf : ∀ closure child, Within R (f closure child))
    (p : ℕ) (closure : γ) : Within R (spfsForAllChildren env f p closure) :=
  spfsForAllChildren_within env (spfsInodeById_reading env) hf (mutexLock_reading p) (mutexUnlock_reading p) closure

theorem spfsLookup_reading (parent : ℕ) (dentry : Dentry) : Within R (spfsLookup env parent dentry) := by
  unfold spfsLookup
  refine (within_getInode parent).bind fun dir => (within_bugOn _).bind fun _ => ?_
  refine Within.bind ?_ fun inode => by cases inode <;> exact Within.pure _
  refine (spfsForAllChildren_reading env (spfsInodeByNameCb_reading _) parent none).bind fun r => ?_
  exact Within.pure _

theorem spfsIterate_reading (file : DirFile) (ctx : DirContext) : Within R (spfsIterate env file ctx) := by
  unfold spfsIterate
  refine (within_getInode _).bind fun parent => Within.ite (fun _ => Within.pure _) fun _ => ?_
  refine Within.ite (fun _ => Within.pure _) fun _ => ?_
  refine (spfsForAllChildren_reading env (fun closure child => within_spfsIterateCb closure child) _ _).bind fun r => ?_
  exact Within.pure _

/-! ### Creating

What a creating call does besides: it inserts into the tree and adds to a directory. -/

theorem createOp_reading (hid : ∀ w id, R w (w.setId id))
    (hinsert : ∀ i, Within R (spfsBtreeInsert env i)) {parent : ℕ}
    (hadd : ∀ child, Within R (spfsAddChild env parent child)) (op : CreateOp) (dentry : Dentry) (mode : ℕ) :
    Within R (op.run env parent dentry mode) := by
  have hlink : Within R (op.link parent) := by
    cases op with
    | create => exact Within.pure _
    | mkdir => exact incNlink_reading parent
  have hgeneric : Within R (spfsGenericCreate env parent dentry mode) := by
    unfold spfsGenericCreate
    refine (within_getInode parent).bind fun dir => (within_superOf dir).bind fun _ => ?_
    split
    · refine (spfsNewInode_reading env hid _ mode).bind fun inode => ?_
      cases inode with
      | error e => exact Within.throw _
      | ok inode =>
        refine (modifyInode_reading inode _).bind fun _ => (within_getInode inode).bind fun i => ?_
        exact (hinsert i).bind fun res => Within.ite (fun _ => Within.pure _) fun _ => Within.pure _
    · exact Within.pure _
  unfold CreateOp.run
  refine (within_bugOn _).bind fun _ => (within_getInode parent).bind fun dir => (within_bugOn _).bind fun _ => ?_
  refine hgeneric.bind fun r => Within.ite (fun _ => Within.pure _) fun _ => ?_
  split
  · exact Within.throw _
  · refine hlink.bind fun _ => (within_getInode _).bind fun child => ?_
    exact (hadd _).bind fun _ => Within.pure _

/-! ### Files -/

theorem spfsReadFileExtentDo_reading (fuel start bhPos length : ℕ) (rest : ReadRest) :
    Within R (spfsReadFileExtentDo env fuel start bhPos length rest) := by
  induction fuel generalizing start bhPos length rest with
  | zero => exact Within.throw _
  | succ fuel ih =>
    have hnext (length : ℕ) (rest : ReadRest) : Within R (do
        brelse start
        if length > 0 then
          let start := start + 1
          if !(← sbBread env start) then
            return (- EIO, rest)
          spfsReadFileExtentDo env fuel start 0 length rest
        else
          return (rest.read.length, rest) : Kernel (ℤ × ReadRest)) := by
      refine (brelse_reading start).bind fun _ => Within.ite (fun _ => ?_) fun _ => Within.pure _
      exact (sbBread_reading env _).bind fun ok => Within.ite (fun _ => Within.pure _) fun _ => ih _ _ _ _
    unfold spfsReadFileExtentDo
    refine Within.get.bind fun w => (within_spfsSbRemaining _ _).bind fun remaining => ?_
    refine Within.ite (fun _ => ?_) fun _ => hnext _ _
    exact (within_spfsSbRemaining _ _).bind fun remaining' => hnext _ _

theorem spfsReadFileExtent_reading (start : ℕ) (rest : ReadRest) :
    Within R (spfsReadFileExtent env start rest) := by
  unfold spfsReadFileExtent
  refine (sbBread_reading env start).bind fun ok => Within.ite (fun _ => Within.pure _) fun _ => ?_
  refine (within_parseBuf _ _ _).bind fun r => ?_
  rcases r with ⟨_ | header, bhPos⟩
  · exact Within.pure _
  · exact (spfsReadFileExtentDo_reading env _ _ _ _ _).bind fun _ => Within.pure _

theorem spfsReadLit_reading (fuel start inLen pos : ℕ) (read : List UInt8) :
    Within R (spfsReadLit env fuel start inLen pos read) := by
  induction fuel generalizing start inLen pos read with
  | zero =>
    cases start with
    | zero => exact Within.pure _
    | succ start => exact Within.throw _
  | succ fuel ih =>
    cases start with
    | zero => exact Within.pure _
    | succ start =>
      refine (spfsReadFileExtent_reading env _ _).bind fun r => ?_
      refine Within.ite (fun _ => Within.pure _) fun _ => ?_
      exact Within.ite (fun _ => ih _ _ _ _) fun _ => Within.pure _

theorem spfsRead_reading (p inLen ppos : ℕ) : Within R (spfsRead env p inLen ppos) := by
  unfold spfsRead
  refine Within.ite (fun _ => Within.pure _) fun _ => (within_getInode p).bind fun inode => ?_
  refine Within.ite (fun _ => Within.pure _) fun _ => (within_superOf inode).bind fun _ => ?_
  refine (mutexLock_reading p).bind fun _ => (spfsReadLit_reading env _ _ _ _ _).bind fun r => ?_
  rcases r with res | read
  · exact Within.pure _
  · exact (mutexUnlock_reading p).bind fun _ => Within.pure _

end Reading

instance : Reading SameStore where
  addEvent _ _ _ := ⟨rfl, rfl, rfl⟩
  cache _ _ _ := ⟨rfl, rfl, rfl⟩

end Spfs
