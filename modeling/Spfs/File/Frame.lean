-- SUMMARY: What file operations leave alone: other inodes, and the sizes of all files, whatever the environment does.
import Spfs.File

/-!
# Frames of file operations

Walking extents and the tree changes blocks and the log. A write changes the start,
the capacity and the lock of its inode; the count it adds to the size is always 0,
because the call gives up when an extent took any bytes.
-/

namespace Spfs

open EStateM (Within)

/-- The inode cache stays as it is. -/
def SameInodes (w w' : World) : Prop := w'.inodes = w.inodes

instance : IsPreorder World SameInodes where
  refl _ := rfl
  trans _ _ _ h h' := Eq.trans h' h

instance : IgnoresStore SameInodes where
  addEvent _ _ := rfl
  setBlock _ _ _ := rfl
  setFreeList _ _ := rfl
  setTreeStart _ _ := rfl

theorem sameInodes_of_onlyLogs {w w' : World} (h : OnlyLogs w w') : SameInodes w w' := h.inodes

/-! ## Relations that ignore the store -/

/-- A relation that looks neither at the log, nor at the free list, nor at the blocks that are
written when no inode is inserted. Block 0 is one of them only if it holds a record. -/
class IgnoresWrites (R : World → World → Prop) : Prop extends IgnoresLog R where
  setBlock : ∀ (w : World) (s : ℕ) (b : Block),
    s ≠ 0 ∨ recordMagic (w.disk s) = spookyFsBtreeMagic → R w (w.setBlock s b)
  setFreeList : ∀ w fl, R w (w.setFreeList fl)

instance {R : World → World → Prop} [IgnoresStore R] : IgnoresWrites R where
  setBlock w s b _ := IgnoresStore.setBlock w s b
  setFreeList w fl := IgnoresStore.setFreeList w fl

section Store

variable {R : World → World → Prop} [IsPreorder World R]

theorem within_spfsSbRemaining (bSize pos : ℕ) : Within R (spfsSbRemaining bSize pos : Kernel ℕ) := by
  unfold spfsSbRemaining
  exact (within_bugOn _).bind fun _ => Within.pure _

variable [IgnoresWrites R] {s : ℕ}

theorem within_freeAlloc (blocks : ℕ) : Within R (freeAlloc blocks) := by
  intro w
  rw [run_freeAlloc]
  by_cases h : (spfsFreeAlloc w.sbi.freeList blocks).1 ≠ 0
  · simp only [if_pos h]
    exact trans_of R (IgnoresWrites.setFreeList w _) (IgnoresLog.addEvent _ _)
  · simp only [if_neg h]
    exact IgnoresWrites.setFreeList w _

omit [IsPreorder World R] in
theorem within_makeBlock {α : Type} (hs : s ≠ 0) (pos : ℕ) (m : ℕ → EStateM Fault Buf α) :
    Within R (makeBuf s pos m) :=
  within_makeBuf s pos m fun w => IgnoresWrites.setBlock w _ _ (.inl hs)

/-- A walk of the tree changes at most the block of a record. -/
theorem within_spfsBtreeModify {γ : Type} (env : Env) (ino : ℕ) (closure : γ)
    (cb : BtreeModifyCb γ) : Within R (spfsBtreeModify env ino closure cb) := by
  intro w
  by_cases h : ∃ cl w', (spfsBtreeModify env ino closure cb).run w = .ok (0, cl) w'
  · obtain ⟨cl, w', hrun⟩ := h
    obtain ⟨offset, _, _, t, cur, dirty, -, hmagic, -, -, hlogs⟩ := spfsBtreeModify_zero hrun
    rw [hrun]
    cases dirty with
    | false => exact hlogs.ignored
    | true => exact trans_of R (IgnoresWrites.setBlock w _ _ (.inr hmagic)) hlogs.ignored
  · have hnone := spfsBtreeModify_nonzero fun cl w' hrun => h ⟨cl, w', hrun⟩
    exact hnone.1.ignored

theorem within_spfsDoWrite (hs : s ≠ 0) (bhPos : ℕ) (rest : WriteRest) :
    Within R (spfsDoWrite s bhPos rest) := by
  unfold spfsDoWrite
  refine Within.get.bind fun w => (within_spfsSbRemaining _ _).bind fun remaining => ?_
  refine Within.ite (fun _ => ?_) fun _ => Within.pure _
  refine (within_spfsSbRemaining _ _).bind fun remaining' => ?_
  exact Within.bind (Within.modify fun w => IgnoresWrites.setBlock w _ _ (.inl hs)) fun _ => Within.pure _

theorem within_spfsWriteFileExtentBlocks (env : Env) (n : ℕ) {it : ℕ} (hit : it ≠ 0) (e : ExtentWrite) :
    Within R (spfsWriteFileExtentBlocks env n it e) := by
  induction n generalizing it e with
  | zero => exact Within.pure _
  | succ n ih =>
    unfold spfsWriteFileExtentBlocks
    refine Within.ite (fun _ => Within.pure _) fun _ => Within.get.bind fun w => ?_
    refine Within.ite (fun _ => ?_) fun _ => ?_
    · refine (within_sbBread env it).bind fun ok => Within.ite (fun _ => Within.pure _) fun _ => ?_
      refine (within_spfsDoWrite hit 0 e.rest).bind fun r => ?_
      refine Within.ite (fun _ => (within_markBufferDirty _).bind fun _ => ?_) fun _ => ?_
      all_goals exact (within_brelse it).bind fun _ => ih (Nat.succ_ne_zero it) _
    · exact Within.get.bind fun w' => (within_bugOn _).bind fun _ => ih (Nat.succ_ne_zero it) _

theorem within_spfsWriteFileExtent (env : Env) (hs : s ≠ 0) (rest : WriteRest) (extra : ℕ) :
    Within R (spfsWriteFileExtent env s rest extra) := by
  unfold spfsWriteFileExtent
  refine (within_sbBread env s).bind fun ok => Within.ite (fun _ => Within.pure _) fun _ => ?_
  refine (within_parseBuf _ _ _).bind fun r => ?_
  rcases r with ⟨_ | header, headPos⟩
  · exact Within.pure _
  refine (within_spfsDoWrite hs _ _).bind fun r => ?_
  refine (within_spfsWriteFileExtentBlocks env _ (Nat.succ_ne_zero s) _).bind fun r => ?_
  rcases r with _ | e
  · exact Within.pure _
  refine Within.ite (fun _ => ?_) fun _ => (within_brelse s).bind fun _ => Within.pure _
  exact (within_makeBlock hs _ _).bind fun r => (within_bugOn _).bind fun _ =>
    (within_markBufferDirty _).bind fun _ => (within_brelse s).bind fun _ => Within.pure _

theorem within_spfsWriteLit (env : Env) (fuel start : ℕ) (rest : WriteRest) (extra : ℕ)
    (written : ℤ) : Within R (spfsWriteLit env fuel start rest extra written) := by
  induction fuel generalizing start rest extra written with
  | zero =>
    cases start with
    | zero => exact Within.pure _
    | succ start => exact Within.throw _
  | succ fuel ih =>
    cases start with
    | zero => exact Within.pure _
    | succ start =>
      refine (within_spfsWriteFileExtent env (Nat.succ_ne_zero start) _ _).bind fun r => ?_
      refine Within.ite (fun _ => Within.pure _) fun _ => ?_
      exact Within.ite (fun _ => ih _ _ _ _) fun _ => Within.pure _

theorem within_spfsFileExtentAlloc (env : Env) (blocks : ℕ) : Within R (spfsFileExtentAlloc env blocks) := by
  unfold spfsFileExtentAlloc
  refine (within_freeAlloc blocks).bind fun result => Within.ite (fun hresult => ?_) fun _ => Within.pure _
  refine (within_sbBread env _).bind fun ok => (within_bugOn _).bind fun _ => ?_
  refine (within_makeBlock hresult _ _).bind fun r => Within.ite (fun _ => Within.pure _) fun _ => ?_
  exact (within_markBufferDirty _).bind fun _ => (within_brelse _).bind fun _ => Within.pure _

/-- Making room changes where the data of the inode lies. -/
theorem within_spfsEnsureCapacity (env : Env) (p inPos inLen : ℕ)
    (hdata : ∀ f : SpfsInode → SpfsInode,
      (∀ i, ∃ start capacity, f i = { i with start := start, capacity := capacity }) →
      Within R (modifyInode p f)) : Within R (spfsEnsureCapacity env p inPos inLen) := by
  unfold spfsEnsureCapacity
  refine (within_getInode p).bind fun inode => (within_followSb inode).bind fun sbi => ?_
  refine Within.ite (fun _ => Within.pure _) fun _ => ?_
  refine (within_spfsFileExtentAlloc env _).bind fun extra => ?_
  refine Within.ite (fun _ => Within.pure _) fun _ => ?_
  have hbytes : Within R (spfsFileExtentDataBytes sbi
      (spfsCalcExtraBlocks sbi.blockSize inode.capacity inPos inLen)) :=
    (within_bugOn _).bind fun _ => Within.pure _
  dsimp only
  refine Within.bind (hdata _ ?_) fun _ => hbytes.bind fun bytes =>
    Within.bind (hdata _ ?_) fun _ => (within_getInode p).bind fun inode' => ?_
  · exact fun i => ⟨_, i.capacity, rfl⟩
  · exact fun i => ⟨i.start, _, rfl⟩
  · exact (within_spfsBtreeModify env _ _ _).bind fun r => Within.pure _

end Store

/-! ## Counts -/

/-- An extent that took bytes ends the write with an error, so the count of a write
that goes on is 0. -/
theorem spfsWriteLit_written {env : Env} {fuel start extra extra' : ℕ} {rest rest' : WriteRest}
    {written written' : ℤ} {w w' : World}
    (h : (spfsWriteLit env fuel start rest extra written).run w =
      .ok (.ok (written', rest', extra')) w') : written' = written := by
  induction fuel generalizing start rest extra written w with
  | zero =>
    cases start with
    | zero =>
      cases h
      rfl
    | succ start => cases h
  | succ fuel ih =>
    cases start with
    | zero =>
      cases h
      rfl
    | succ start =>
      unfold spfsWriteLit at h
      obtain ⟨⟨ires, header, rest₁, extra₁⟩, w₁, -, h⟩ := EStateM.run_bind_eq_ok.mp h
      dsimp only at h
      by_cases hires : ires = 0
      · subst hires
        rw [if_neg (not_not.mpr rfl), Int.add_zero] at h
        split at h
        · exact ih h
        · cases h
          rfl
      · rw [if_pos hires] at h
        cases h

/-! ## One inode -/

/-- Only the inode `p` changes, and of it only where its data lies. -/
structure MovesData (p : ℕ) (w w' : World) : Prop where
  others : ∀ q ≠ p, w'.inodes q = w.inodes q
  kept : ∀ i, w.inodes p = some i → ∃ start capacity,
    w'.inodes p = some { i with start := start, capacity := capacity }

theorem SameInodes.movesData {w w' : World} (h : SameInodes w w') (p : ℕ) : MovesData p w w' where
  others q _ := by rw [h]
  kept i hi := ⟨i.start, i.capacity, by rw [h, hi]⟩

instance (p : ℕ) : IsPreorder World (MovesData p) where
  refl w := (refl_of SameInodes w).movesData p
  trans _ _ _ h h' := by
    refine ⟨fun q hq => (h'.others q hq).trans (h.others q hq), fun i hi => ?_⟩
    obtain ⟨start, capacity, hi₁⟩ := h.kept i hi
    obtain ⟨start', capacity', hi₂⟩ := h'.kept _ hi₁
    exact ⟨start', capacity', hi₂⟩

instance (p : ℕ) : IgnoresStore (MovesData p) where
  addEvent w e := SameInodes.movesData (IgnoresLog.addEvent w e) p
  setBlock w s b := SameInodes.movesData (IgnoresStore.setBlock w s b) p
  setFreeList w fl := SameInodes.movesData (IgnoresStore.setFreeList w fl) p
  setTreeStart w s := SameInodes.movesData (IgnoresStore.setTreeStart w s) p

theorem within_modifyInode_moves (p : ℕ) {f : SpfsInode → SpfsInode}
    (hf : ∀ i, ∃ start capacity, f i = { i with start := start, capacity := capacity }) :
    Within (MovesData p) (modifyInode p f) := by
  intro w
  cases h : w.inodes p with
  | none =>
    rw [modifyInode, EStateM.run_bind_of_error (by rw [run_getInode, h])]
    exact refl_of (MovesData p) w
  | some i =>
    rw [run_modifyInode_of h]
    refine ⟨fun q hq => Function.update_of_ne hq _ _, fun i' hi' => ?_⟩
    obtain rfl : i = i' := Option.some.inj (h.symm.trans hi')
    obtain ⟨start, capacity, hfi⟩ := hf i
    exact ⟨start, capacity, by rw [← hfi]; exact Function.update_self _ _ _⟩

theorem within_spfsEnsureCapacity_moves (env : Env) (p inPos inLen : ℕ) :
    Within (MovesData p) (spfsEnsureCapacity env p inPos inLen) :=
  within_spfsEnsureCapacity env p inPos inLen fun _ hf => within_modifyInode_moves p hf

/-! ## Other files -/

/-- No inode but `p` changes. -/
def OnlyInode (p : ℕ) (w w' : World) : Prop := ∀ q ≠ p, w'.inodes q = w.inodes q

instance (p : ℕ) : IsPreorder World (OnlyInode p) where
  refl _ _ _ := rfl
  trans _ _ _ h h' q hq := (h' q hq).trans (h q hq)

instance (p : ℕ) : IgnoresStore (OnlyInode p) where
  addEvent _ _ _ _ := rfl
  setBlock _ _ _ _ _ := rfl
  setFreeList _ _ _ _ := rfl
  setTreeStart _ _ _ _ := rfl

theorem SameInodes.onlyInode {w w' : World} (h : SameInodes w w') (p : ℕ) : OnlyInode p w w' :=
  (h.movesData p).others

theorem onlyInode_setInode (w : World) (p : ℕ) (i : SpfsInode) : OnlyInode p w (w.setInode p i) :=
  fun _ hq => Function.update_of_ne hq _ _

/-! ### Relations that also ignore one inode -/

section Inode

variable {R : World → World → Prop} [IsPreorder World R] {p : ℕ}

theorem within_modifyInode_ignored (hput : ∀ w i, R w (w.setInode p i)) (f : SpfsInode → SpfsInode) :
    Within R (modifyInode p f) :=
  (within_getInode p).bind fun _ => fun w => hput w _

variable [IgnoresWrites R]

theorem within_mutexLock_ignored (hput : ∀ w i, R w (w.setInode p i)) : Within R (mutexLock p) := by
  refine (within_getInode p).bind fun i => Within.ite (fun _ => Within.throw _) fun _ => ?_
  exact Within.bind (fun w => hput w _) fun _ => within_emit _

theorem within_mutexLockInterruptible_ignored (hput : ∀ w i, R w (w.setInode p i)) (env : Env) :
    Within R (mutexLockInterruptible env p) := by
  refine (within_getInode p).bind fun i => Within.ite (fun _ => ?_) fun _ => ?_
  · exact Within.get.bind fun w => Within.ite (fun _ => Within.pure _) fun _ => Within.throw _
  · exact Within.bind (fun w => hput w _) fun _ => (within_emit _).bind fun _ => Within.pure _

theorem within_mutexUnlock_ignored (hput : ∀ w i, R w (w.setInode p i)) : Within R (mutexUnlock p) :=
  (within_modifyInode_ignored hput _).bind fun _ => within_emit _

theorem within_spfsWrite_ignored (hput : ∀ w i, R w (w.setInode p i)) (env : Env) (inBuf : List UInt8)
    (ppos : ℕ) : Within R (spfsWrite env p inBuf ppos) := by
  unfold spfsWrite
  refine Within.ite (fun _ => Within.pure _) fun _ => (within_getInode p).bind fun inode => ?_
  refine Within.ite (fun _ => Within.pure _) fun _ => ?_
  refine (within_mutexLockInterruptible_ignored hput env).bind fun intr => ?_
  refine Within.ite (fun _ => Within.pure _) fun _ => ?_
  have hensure (pos : ℕ) : Within R (spfsEnsureCapacity env p pos inBuf.length) :=
    within_spfsEnsureCapacity env p _ _ fun f _ => within_modifyInode_ignored hput f
  refine (hensure _).bind fun r => Within.ite (fun _ => Within.pure _) fun _ => ?_
  refine (within_getInode p).bind fun inode' => ?_
  refine (within_spfsWriteLit env _ _ _ _ _).bind fun r' => ?_
  rcases r' with res | ⟨written, rest, extra⟩
  · exact Within.pure _
  exact (within_bugOn _).bind fun _ => (within_bugOn _).bind fun _ =>
    (within_modifyInode_ignored hput _).bind fun _ => (within_mutexUnlock_ignored hput).bind fun _ =>
      Within.pure _

end Inode

/-- A write changes no inode but its own, whether it returns or not. -/
theorem within_spfsWrite (env : Env) (p : ℕ) (inBuf : List UInt8) (ppos : ℕ) :
    Within (OnlyInode p) (spfsWrite env p inBuf ppos) :=
  within_spfsWrite_ignored (fun w i => onlyInode_setInode w p i) env inBuf ppos

/-! ### Reads -/

theorem within_spfsReadFileExtentDo (env : Env) (fuel start bhPos length : ℕ) (rest : ReadRest) :
    Within OnlyLogs (spfsReadFileExtentDo env fuel start bhPos length rest) := by
  induction fuel generalizing start bhPos length rest with
  | zero => exact Within.throw _
  | succ fuel ih =>
    unfold spfsReadFileExtentDo
    refine Within.get.bind fun w => (within_spfsSbRemaining _ _).bind fun remaining => ?_
    refine Within.ite (fun _ => ?_) fun _ => ?_
    · refine (within_spfsSbRemaining _ _).bind fun remaining' => ?_
      refine (within_brelse start).bind fun _ => Within.ite (fun _ => ?_) fun _ => Within.pure _
      exact (within_sbBread env _).bind fun ok => Within.ite (fun _ => Within.pure _) fun _ =>
        ih _ _ _ _
    · refine (within_brelse start).bind fun _ => Within.ite (fun _ => ?_) fun _ => Within.pure _
      exact (within_sbBread env _).bind fun ok => Within.ite (fun _ => Within.pure _) fun _ =>
        ih _ _ _ _

theorem within_spfsReadFileExtent (env : Env) (start : ℕ) (rest : ReadRest) :
    Within OnlyLogs (spfsReadFileExtent env start rest) := by
  unfold spfsReadFileExtent
  refine (within_sbBread env start).bind fun ok => Within.ite (fun _ => Within.pure _) fun _ => ?_
  refine (within_parseBuf _ _ _).bind fun r => ?_
  rcases r with ⟨_ | header, bhPos⟩
  · exact Within.pure _
  · exact (within_spfsReadFileExtentDo env _ _ _ _ _).bind fun _ => Within.pure _

/-- Walking the extents of a file for a read changes nothing. -/
theorem within_spfsReadLit (env : Env) (fuel start inLen pos : ℕ) (read : List UInt8) :
    Within OnlyLogs (spfsReadLit env fuel start inLen pos read) := by
  induction fuel generalizing start inLen pos read with
  | zero =>
    cases start with
    | zero => exact Within.pure _
    | succ start => exact Within.throw _
  | succ fuel ih =>
    cases start with
    | zero => exact Within.pure _
    | succ start =>
      refine (within_spfsReadFileExtent env _ _).bind fun r => ?_
      refine Within.ite (fun _ => Within.pure _) fun _ => ?_
      exact Within.ite (fun _ => ih _ _ _ _) fun _ => Within.pure _

/-- A read changes no inode but its own, whether it returns or not. -/
theorem within_spfsRead (env : Env) (p inLen ppos : ℕ) :
    Within (OnlyInode p) (spfsRead env p inLen ppos) := by
  unfold spfsRead
  refine Within.ite (fun _ => Within.pure _) fun _ => (within_getInode p).bind fun inode => ?_
  refine Within.ite (fun _ => Within.pure _) fun _ => (within_superOf inode).bind fun _ => ?_
  refine (within_mutexLock_ignored fun w i => onlyInode_setInode w p i).bind fun _ => ?_
  have hlit : Within (OnlyInode p) (spfsReadLit env env.fuel inode.start inLen ppos []) :=
    (within_spfsReadLit env _ _ _ _ _).mono fun _ _ h => (sameInodes_of_onlyLogs h).onlyInode p
  refine hlit.bind fun r => ?_
  rcases r with res | read
  · exact Within.pure _
  · exact (within_mutexUnlock_ignored fun w i => onlyInode_setInode w p i).bind fun _ => Within.pure _

/-! ## Sizes -/

/-- The sizes of all files stay as they are. -/
def SameSizes (w w' : World) : Prop := ∀ q, (w'.inodes q).map (·.iSize) = (w.inodes q).map (·.iSize)

instance : IsPreorder World SameSizes where
  refl _ _ := rfl
  trans _ _ _ h h' q := Eq.trans (h' q) (h q)

instance : IgnoresLog SameSizes where
  addEvent _ _ _ := rfl

theorem SameInodes.sameSizes {w w' : World} (h : SameInodes w w') : SameSizes w w' :=
  fun q => by rw [h]

theorem MovesData.sameSizes {p : ℕ} {w w' : World} (h : MovesData p w w')
    {i : SpfsInode} (hp : w.inodes p = some i) : SameSizes w w' := by
  intro q
  by_cases hq : q = p
  · subst hq
    obtain ⟨start, capacity, hi'⟩ := h.kept i hp
    rw [hi', hp]
    rfl
  · rw [h.others q hq]

theorem within_modifyInode {f : SpfsInode → SpfsInode} (p : ℕ) (hf : ∀ i, (f i).iSize = i.iSize) :
    Within SameSizes (modifyInode p f) := by
  intro w
  cases h : w.inodes p with
  | none =>
    rw [modifyInode, EStateM.run_bind_of_error (by rw [run_getInode, h])]
    exact refl_of SameSizes w
  | some i =>
    rw [run_modifyInode_of h]
    intro q
    by_cases hq : q = p
    · subst hq
      simp [h, hf]
    · simp [hq]

theorem sameSizes_setInode {w : World} {p : ℕ} {i j : SpfsInode} (h : w.inodes p = some i)
    (hsize : j.iSize = i.iSize) : SameSizes w (w.setInode p j) := by
  intro q
  by_cases hq : q = p
  · subst hq
    simp [h, hsize]
  · simp [hq]

theorem within_mutexLockInterruptible (env : Env) (p : ℕ) :
    Within SameSizes (mutexLockInterruptible env p) := by
  intro w
  cases h : w.inodes p with
  | none =>
    rw [mutexLockInterruptible, EStateM.run_bind_of_error (by rw [run_getInode, h])]
    exact refl_of SameSizes w
  | some i =>
    cases hlock : i.lock with
    | false =>
      rw [run_mutexLockInterruptible_of h hlock]
      exact sameSizes_setInode h rfl
    | true =>
      rw [run_mutexLockInterruptible_held h hlock]
      split <;> exact refl_of SameSizes w

/-- No write changes the size of a file. -/
theorem spfsWrite_sameSizes {env : Env} {p ppos : ℕ} {inBuf : List UInt8} {r : ℤ × ℕ} {w w' : World}
    (h : (spfsWrite env p inBuf ppos).run w = .ok r w') : SameSizes w w' := by
  unfold spfsWrite at h
  split at h
  · cases h
    exact refl_of SameSizes w
  obtain ⟨inode, w₁, hget, hrun₁⟩ := EStateM.run_bind_eq_ok.mp h
  obtain ⟨hw₁, hinode⟩ : w = w₁ ∧ w.inodes p = some inode := by
    cases hp : w.inodes p with
    | none => rw [run_getInode, hp] at hget; cases hget
    | some i => rw [run_getInode_of hp] at hget; cases hget; exact ⟨rfl, rfl⟩
  subst hw₁
  split at hrun₁
  · cases hrun₁
    exact refl_of SameSizes _
  obtain ⟨intr, w₂, hlocked, hrun₂⟩ := EStateM.run_bind_eq_ok.mp hrun₁
  have hlock := (within_mutexLockInterruptible env p).of_ok hlocked
  split at hrun₂
  · cases hrun₂
    exact hlock
  obtain ⟨⟨res, extra⟩, w₃, henough, hrun₃⟩ := EStateM.run_bind_eq_ok.mp hrun₂
  obtain ⟨j₂, hj₂, -⟩ : ∃ j, w₂.inodes p = some j ∧ j.iSize = inode.iSize := by
    have hp := hlock p
    rw [hinode] at hp
    exact Option.map_eq_some_iff.mp hp
  have hmoves := (within_spfsEnsureCapacity_moves env p _ _).of_ok henough
  have hensure := trans_of SameSizes hlock (hmoves.sameSizes hj₂)
  dsimp only at hrun₃
  split at hrun₃
  · cases hrun₃
    exact hensure
  obtain ⟨inode', w₄, hget', hrun₄⟩ := EStateM.run_bind_eq_ok.mp hrun₃
  obtain ⟨r', w₅, hwrite, hrun₅⟩ := EStateM.run_bind_eq_ok.mp hrun₄
  have hgot : SameSizes w₃ w₄ := (within_getInode p).of_ok hget'
  have hlit : SameSizes w₄ w₅ :=
    SameInodes.sameSizes ((within_spfsWriteLit env _ _ _ _ _).of_ok hwrite)
  have hall := trans_of SameSizes (trans_of SameSizes hensure hgot) hlit
  rcases r' with res' | ⟨written, rest, extra'⟩
  · cases hrun₅
    exact hall
  obtain rfl := spfsWriteLit_written hwrite
  -- the count is 0, so the size that is stored is the one that was read
  obtain ⟨j, hj, hsize⟩ : ∃ j, w₅.inodes p = some j ∧ j.iSize = inode.iSize := by
    have hp := hall p
    rw [hinode] at hp
    exact Option.map_eq_some_iff.mp hp
  have hzero : ((inode.iSize : ℤ) + 0).toNat = j.iSize := by omega
  obtain ⟨_, w₆, hbug, hrun₆⟩ := EStateM.run_bind_eq_ok.mp hrun₅
  obtain ⟨_, w₇, hbug', hrun₇⟩ := EStateM.run_bind_eq_ok.mp hrun₆
  obtain rfl : w₅ = w₆ := by
    rw [run_bugOn] at hbug
    split at hbug <;> cases hbug
    rfl
  obtain rfl : w₅ = w₇ := by
    rw [run_bugOn] at hbug'
    split at hbug' <;> cases hbug'
    rfl
  rw [EStateM.run_bind_of_ok (run_modifyInode_of hj)] at hrun₇
  have hset : SameSizes w₅ (w₅.setInode p { j with iSize := ((inode.iSize : ℤ) + 0).toNat }) :=
    sameSizes_setInode hj hzero
  obtain ⟨_, w₈, hunlock, hrun₈⟩ := EStateM.run_bind_eq_ok.mp hrun₇
  cases hrun₈
  have hrelease : Within SameSizes (mutexUnlock p) := by
    refine Within.bind (within_modifyInode p ?_) fun _ => within_emit _
    exact fun _ => rfl
  exact trans_of SameSizes (trans_of SameSizes hall hset) (hrelease.of_ok hunlock)

end Spfs
