-- SUMMARY: Objects that the slab hands out again: a new inode has the data of the one that was freed.
import Spfs.Dir.Visits
import Spfs.File.Frame
import Spfs.Namespace.Failure

/-!
# Reused objects

A freed object keeps what is in it, and `spfs_new_inode` sets neither the start nor the
capacity. So a new inode is empty as long as every inode was empty when it was freed.
-/

namespace Spfs

open EStateM (Within Returns run_bind_of_ok run_bind_of_error)

/-- The inode has no data: no extent or directory block, and no room in one. -/
structure SpfsInode.NoData (i : SpfsInode) : Prop where
  capacity : i.capacity = 0
  start : i.start = 0

/-- The objects in the slab have no data. -/
def CleanSlab (w : World) : Prop := ∀ i ∈ w.slab, i.NoData

/-- What is in the cache under the next number without a reference may be freed. A new
inode that finds it there drops it. -/
def Unused (freed : SpfsInode → Prop) (w : World) : Prop :=
  ∀ i, w.inodes w.sbi.id = some i → i.iCount = 0 → freed i

/-- The states that calls lead to, when what is freed meets a condition. -/
inductive History (freed : SpfsInode → Prop) (w₀ : World) : World → Prop where
  | start : History freed w₀ w₀
  | born {env : Env} {parent : Option ℕ} {mode : ℕ} {r : Except ℤ ℕ} {w w' : World} :
      History freed w₀ w → Unused freed w → (spfsNewInode env parent mode).run w = .ok r w' →
      History freed w₀ w'
  | created {env : Env} {op : CreateOp} {parent mode : ℕ} {dentry : Dentry} {r : ℤ × Dentry}
      {w w' : World} : History freed w₀ w → Unused freed w →
      (op.run env parent dentry mode).run w = .ok r w' → History freed w₀ w'
  | written {env : Env} {p ppos : ℕ} {inBuf : List UInt8} {r : ℤ × ℕ} {w w' : World} :
      History freed w₀ w → (spfsWrite env p inBuf ppos).run w = .ok r w' → History freed w₀ w'
  | added {env : Env} {p child : ℕ} {r : ℤ} {w w' : World} : History freed w₀ w →
      (spfsAddChild env p child).run w = .ok r w' → History freed w₀ w'
  | loaded {env : Env} {needle : ℕ} {r : Except ℤ (Option ℕ)} {w w' : World} :
      History freed w₀ w → (spfsInodeById env needle).run w = .ok r w' → History freed w₀ w'
  | freed {p : ℕ} {i : SpfsInode} {w : World} : History freed w₀ w → w.inodes p = some i →
      freed i → History freed w₀ (w.evict p)

/-- A new inode has no data, whatever the slab hands out. -/
def StartsEmpty (w : World) : Prop :=
  ∀ (env : Env) (parent : Option ℕ) (mode p : ℕ) (w' : World),
    (spfsNewInode env parent mode).run w = .ok (.ok p) w' → ∃ i, w'.inodes p = some i ∧ i.NoData

/-! ## Calls that free nothing -/

def SameSlab (w w' : World) : Prop := w'.slab = w.slab

instance : IsPreorder World SameSlab where
  refl _ := rfl
  trans _ _ _ h h' := Eq.trans h' h

instance : IgnoresStore SameSlab where
  addEvent _ _ := rfl
  setBlock _ _ _ := rfl
  setFreeList _ _ := rfl
  setTreeStart _ _ := rfl

theorem SameSlab.clean {w w' : World} (h : SameSlab w w') (hclean : CleanSlab w) : CleanSlab w' := by
  intro i hi
  rw [h] at hi
  exact hclean i hi

section Store

variable {R : World → World → Prop} [IsPreorder World R] [IgnoresStore R]

/-- An insertion changes the store only. -/
theorem within_spfsBtreeInsert (env : Env) (in_ : SpfsInode) : Within R (spfsBtreeInsert env in_) := by
  intro w
  by_cases hstart : w.sbi.tree.start = 0
  · have hfirst := spfsBtreeInsert_first env in_ hstart
    have hpage : R w (w.setFreeList (listAfterPage w)) := IgnoresStore.setFreeList w _
    have hrecorded : R w (recorded env in_ w) := trans_of R hpage (IgnoresStore.setBlock _ _ _)
    have hroot : R w ((recorded env in_ w).setFreeList (listAfterRoot w)) :=
      trans_of R hrecorded (IgnoresStore.setFreeList _ _)
    have hrooted (b : Block) : R w (rooted env in_ w b) :=
      trans_of R (trans_of R hroot (IgnoresStore.setTreeStart _ _)) (IgnoresStore.setBlock _ _ _)
    generalize (spfsBtreeInsert env in_).run w = r at hfirst ⊢
    cases hfirst with
    | noPage _ hlogs => exact trans_of R hpage hlogs.ignored
    | pageUnread _ _ hlogs => exact trans_of R hpage hlogs.onlyLogs.ignored
    | zeroId _ _ _ hlogs => exact trans_of R hrecorded hlogs.onlyLogs.ignored
    | noRoot _ _ _ _ hlogs => exact trans_of R hroot hlogs.onlyLogs.ignored
    | rootUnread _ _ _ _ _ hlogs => exact trans_of R hroot hlogs.onlyLogs.ignored
    | overrun _ _ _ _ _ _ _ hlogs => exact trans_of R (hrooted _) hlogs.onlyLogs.ignored
    | inserted _ _ _ _ _ _ _ hlogs => exact trans_of R (hrooted _) hlogs.onlyLogs.ignored
  · have hlogs : OnlyLogs w ((spfsBtreeInsert env in_).run w).final := spfsBtreeInsert_rootedFrame env in_ w hstart
    exact hlogs.ignored

end Store

section Writes

variable {R : World → World → Prop} [IsPreorder World R] [IgnoresWrites R]

theorem within_addToBlock {s : ℕ} (hs : s ≠ 0) (bhPos : ℕ) (block : DirBlock) (child : ℕ) :
    Within R (addToBlock s bhPos block child) := by
  have hwrite : Within R (spfsDirWriteChild s bhPos block.children child) := by
    unfold spfsDirWriteChild
    refine Within.get.bind fun w => (within_spfsSbRemaining _ _).bind fun remaining => ?_
    refine Within.ite (fun _ => Within.pure _) fun _ => (within_makeBlock hs _ _).bind fun r => ?_
    exact Within.ite (fun _ => Within.pure _) fun _ => Within.pure _
  unfold addToBlock
  exact hwrite.bind fun _ => (within_makeBlock hs _ _).bind fun _ => within_markBufferDirty s

theorem within_spfsDirBlockAlloc (env : Env) : Within R (spfsDirBlockAlloc env) := by
  unfold spfsDirBlockAlloc
  refine (within_freeAlloc 1).bind fun result => Within.ite (fun hresult => ?_) fun _ => Within.pure _
  refine (within_sbBread env result).bind fun ok => Within.ite (fun _ => Within.pure _) fun _ => ?_
  exact (within_makeBlock hresult _ _).bind fun r => Within.ite (fun _ => Within.pure _) fun _ => Within.pure _

/-- Adding a child to a directory changes blocks that are written and the directory only. -/
theorem within_spfsAddChild {p : ℕ} (hput : ∀ w i, R w (w.setInode p i)) (env : Env) (child : ℕ) :
    Within R (spfsAddChild env p child) := by
  have hfirst (fuel : ℕ) : Within R (spfsAddChildLit env p child fuel 0) := by
    rw [spfsAddChildLit]
    refine (within_spfsDirBlockAlloc env).bind fun r => (within_modifyInode_ignored hput _).bind fun _ => ?_
    refine Within.ite (fun _ => Within.pure _) fun hs => (within_addToBlock hs _ _ _).bind fun _ => ?_
    exact (within_brelse _).bind fun _ => Within.pure _
  have hlit (fuel start : ℕ) : Within R (spfsAddChildLit env p child fuel start) := by
    induction fuel generalizing start with
    | zero =>
      cases start with
      | zero => exact hfirst 0
      | succ start => exact Within.throw _
    | succ fuel ih =>
      cases start with
      | zero => exact hfirst (fuel + 1)
      | succ start =>
        unfold spfsAddChildLit
        refine (within_sbBread env _).bind fun ok => Within.ite (fun _ => Within.pure _) fun _ => ?_
        refine (within_parseBuf _ _ _).bind fun r => ?_
        rcases r with ⟨_ | block, bhPos⟩
        · exact Within.pure _
        refine Within.ite (fun _ => ?_) fun _ => (within_brelse _).bind fun _ => ih _
        exact (within_addToBlock (Nat.succ_ne_zero start) _ _ _).bind fun _ =>
          (within_brelse _).bind fun _ => Within.pure _
  unfold spfsAddChild
  refine (within_mutexLock_ignored hput).bind fun _ => (within_modifyInode_ignored hput _).bind fun _ => ?_
  refine Within.bind (within_modifyInode_ignored hput _) fun _ => (within_getInode p).bind fun parent => ?_
  exact (hlit _ _).bind fun res => (within_mutexUnlock_ignored hput).bind fun _ => Within.pure _

end Writes

/-! ## Calls that take objects from the slab -/

/-- The slab is the same, and the data of an inode lies where it was. -/
structure KeepsData (p : ℕ) (w w' : World) : Prop where
  slab : w'.slab = w.slab
  data : ∀ i, w.inodes p = some i → ∃ j, w'.inodes p = some j ∧ j.capacity = i.capacity ∧ j.start = i.start

instance (p : ℕ) : IsPreorder World (KeepsData p) where
  refl _ := ⟨rfl, fun i hi => ⟨i, hi, rfl, rfl⟩⟩
  trans _ _ _ h h' := by
    refine ⟨h'.slab.trans h.slab, fun i hi => ?_⟩
    obtain ⟨j, hj, hcapacity, hstart⟩ := h.data i hi
    obtain ⟨k, hk, hcapacity', hstart'⟩ := h'.data j hj
    exact ⟨k, hk, hcapacity'.trans hcapacity, hstart'.trans hstart⟩

instance (p : ℕ) : IgnoresLog (KeepsData p) where
  addEvent _ _ := ⟨rfl, fun i hi => ⟨i, hi, rfl, rfl⟩⟩

section Slab

variable {env : Env} {w w' : World} {p : ℕ} {i : SpfsInode}

theorem keepsData_setInode (hp : w.inodes p = some i) {j : SpfsInode} (hcapacity : j.capacity = i.capacity)
    (hstart : j.start = i.start) : KeepsData p w (w.setInode p j) := by
  refine ⟨rfl, fun k hk => ⟨j, Function.update_self .., ?_⟩⟩
  obtain rfl := Option.some.inj (hp.symm.trans hk)
  exact ⟨hcapacity, hstart⟩

theorem keepsData_of_modifyInode {f : SpfsInode → SpfsInode} {u : Unit} (hrun : (modifyInode p f).run w = .ok u w')
    (hf : ∀ i, (f i).capacity = i.capacity ∧ (f i).start = i.start) : KeepsData p w w' := by
  obtain ⟨i, w₁, hget, hput⟩ := EStateM.run_bind_eq_ok.mp hrun
  rw [run_getInode] at hget
  split at hget <;> cases hget
  next hp =>
  cases hput
  exact keepsData_setInode hp (hf i).1 (hf i).2

theorem inodeInitOwner_data (env : Env) (dir : SpfsInode) (mode : ℕ) (i : SpfsInode) :
    (inodeInitOwner env dir mode i).capacity = i.capacity ∧ (inodeInitOwner env dir mode i).start = i.start := by
  unfold inodeInitOwner
  split <;> exact ⟨rfl, rfl⟩

theorem returns_spfsSetupInodeFp_keepsData : Returns (KeepsData p) (spfsSetupInodeFp p) := by
  intro w u w' hrun
  obtain ⟨i, w₁, hget, -⟩ := EStateM.run_bind_eq_ok.mp hrun
  rw [run_getInode] at hget
  split at hget <;> cases hget
  next hp =>
  obtain ⟨nlink, rfl⟩ := spfsSetupInodeFp_ok hp hrun
  exact keepsData_setInode hp rfl rfl

/-- An object that is dropped goes to the slab with its data, and only the last reference
drops it. -/
theorem igetFailed_slab (hp : w.inodes p = some i) {u : Unit} (hrun : (igetFailed env p).run w = .ok u w') :
    w'.slab = w.slab ∨
      i.iCount ≤ 1 ∧ ∃ j, w'.slab = j :: w.slab ∧ j.capacity = i.capacity ∧ j.start = i.start := by
  rw [run_igetFailed hp] at hrun
  cases hrun
  split
  · next hlast =>
    have hp' : (w.setInode p (i.failed env w.time)).inodes p = some (i.failed env w.time) := Function.update_self ..
    exact .inr ⟨hlast, i.failed env w.time, World.evict_slab hp', rfl, rfl⟩
  · exact .inl rfl

/-- The slab stays clean if the inode that may be dropped has no data. -/
theorem igetFailed_clean (hclean : CleanSlab w) (hp : w.inodes p = some i) (hdata : i.iCount ≤ 1 → i.NoData)
    {u : Unit} (hrun : (igetFailed env p).run w = .ok u w') : CleanSlab w' := by
  rcases igetFailed_slab hp hrun with hsame | ⟨hcount, j, hcons, hcapacity, hstart⟩
  · exact SameSlab.clean hsame hclean
  · obtain ⟨hcap, hst⟩ := hdata hcount
    intro k hk
    rw [hcons] at hk
    rcases List.mem_cons.mp hk with rfl | hk
    · exact ⟨hcapacity.trans hcap, hstart.trans hst⟩
    · exact hclean k hk

/-- A new object has the data of the one that it was in the slab. -/
theorem clean_newObject (hclean : CleanSlab w) (ino k : ℕ) :
    (newObject ino (w.slab[k]?.getD spfsInodeInitOnce)).NoData := by
  cases hk : w.slab[k]? with
  | none => exact ⟨rfl, rfl⟩
  | some obj =>
    have hobj := hclean obj (List.mem_of_getElem? hk)
    exact ⟨hobj.capacity, hobj.start⟩

theorem clean_withNewObject (hclean : CleanSlab w) (ino k : ℕ) : CleanSlab (withNewObject w ino k) :=
  fun i hi => hclean i (List.mem_of_mem_eraseIdx hi)

/-- Loading an inode leaves a clean slab clean: what it frees it took from there. -/
theorem spfsInodeById_clean {needle : ℕ} {r : Except ℤ (Option ℕ)} (hclean : CleanSlab w)
    (hrun : (spfsInodeById env needle).run w = .ok r w') : CleanSlab w' := by
  cases hp : w.inodes needle with
  | some i =>
    obtain ⟨-, rfl⟩ := spfsInodeById_present hp hrun
    exact hclean
  | none =>
    rw [spfsInodeById, EStateM.run_bind_match, run_igetLocked_none needle hp] at hrun
    cases hpick : env.slabPick w.time with
    | none =>
      rw [hpick] at hrun
      cases hrun
      exact hclean
    | some k =>
      rw [hpick] at hrun
      dsimp only at hrun
      set obj := newObject needle (w.slab[k]?.getD spfsInodeInitOnce)
      set w₁ := withNewObject w needle k
      have hclean₁ : CleanSlab w₁ := clean_withNewObject hclean needle k
      have hp₁ : w₁.inodes needle = some obj := Function.update_self ..
      rw [run_bind_of_ok (run_getInode_of hp₁)] at hrun
      have hnew : obj.iNew = true := rfl
      rw [hnew] at hrun
      obtain ⟨⟨res, loaded⟩, w₂, hlookup, hrest⟩ := EStateM.run_bind_eq_ok.mp hrun
      have hlogs : OnlyLogs w₁ w₂ := (spfsBtreeLookup_onlyLogs env needle obj).of_ok hlookup
      have hclean₂ : CleanSlab w₂ := SameSlab.clean hlogs.slab hclean₁
      dsimp only at hrest
      split at hrest
      · obtain ⟨_, w₃, hfailed, hreturn⟩ := EStateM.run_bind_eq_ok.mp hrest
        cases hreturn
        have hp₂ : w₂.inodes needle = some obj := by rw [hlogs.inodes, hp₁]
        exact igetFailed_clean hclean₂ hp₂ (fun _ => clean_newObject hclean needle k) hfailed
      · obtain ⟨_, w₃, hput, hrest₃⟩ := EStateM.run_bind_eq_ok.mp hrest
        cases hput
        obtain ⟨_, w₄, hsetup, hrest₄⟩ := EStateM.run_bind_eq_ok.mp hrest₃
        obtain ⟨_, w₅, hunlock, hreturn⟩ := EStateM.run_bind_eq_ok.mp hrest₄
        cases hreturn
        have hslab₄ := (returns_spfsSetupInodeFp_keepsData _ _ _ hsetup).slab
        have hslab₅ : SameSlab w₄ w' := (within_modifyInode_ignored (fun _ _ => rfl) _).of_ok hunlock
        exact hslab₅.clean (SameSlab.clean hslab₄ hclean₂)

/-- The end of `spfs_new_inode` does not touch the data of the new object. -/
theorem finishNew_keepsData {id : ℕ} {r : Except ℤ ℕ} (hrun : (do
      let now := env.now (← get).time
      modifyInode id fun i => { i with iCtime := now, iAtime := now, iMtime := now }
      spfsSetupInodeFp id
      unlockNewInode id
      return .ok id : Kernel (Except ℤ ℕ)).run w = .ok r w') :
    KeepsData id w w' ∧ r = .ok id := by
  rw [run_bind_of_ok (EStateM.run_get w)] at hrun
  obtain ⟨_, w₁, htimes, h₁⟩ := EStateM.run_bind_eq_ok.mp hrun
  obtain ⟨_, w₂, hsetup, h₂⟩ := EStateM.run_bind_eq_ok.mp h₁
  obtain ⟨_, w₃, hunlock, hreturn⟩ := EStateM.run_bind_eq_ok.mp h₂
  have hkept₁ := keepsData_of_modifyInode htimes fun _ => ⟨rfl, rfl⟩
  have hkept₂ := returns_spfsSetupInodeFp_keepsData _ _ _ hsetup
  have hkept₃ := keepsData_of_modifyInode hunlock fun _ => ⟨rfl, rfl⟩
  cases hreturn
  exact ⟨trans_of (KeepsData id) (trans_of (KeepsData id) hkept₁ hkept₂) hkept₃, rfl⟩

/-- Nor does the rest of it, from where the object is in the cache. -/
theorem spfsNewInode_keepsData {parent : Option ℕ} {mode k : ℕ} {r : Except ℤ ℕ}
    (hfree : w.inodes w.sbi.id = none) (hpick : env.slabPick w.time = some k)
    (hrun : (spfsNewInode env parent mode).run w = .ok r w') :
    KeepsData w.sbi.id (bornWorld w k (newObject w.sbi.id (w.slab[k]?.getD spfsInodeInitOnce))) w' ∧
      r = .ok w.sbi.id := by
  rw [run_spfsNewInode_born parent hfree hpick] at hrun
  cases parent with
  | none =>
    obtain ⟨_, w₁, hmode, hrest⟩ := EStateM.run_bind_eq_ok.mp hrun
    have hkept₁ := keepsData_of_modifyInode hmode fun _ => ⟨rfl, rfl⟩
    obtain ⟨hkept₂, hr⟩ := finishNew_keepsData hrest
    exact ⟨trans_of (KeepsData w.sbi.id) hkept₁ hkept₂, hr⟩
  | some parent =>
    obtain ⟨dir, w₁, hdir, h₁⟩ := EStateM.run_bind_eq_ok.mp hrun
    obtain ⟨_, w₂, howner, hrest⟩ := EStateM.run_bind_eq_ok.mp h₁
    have hkept₁ : KeepsData w.sbi.id _ w₁ := (within_getInode parent).of_ok hdir
    have hkept₂ := keepsData_of_modifyInode howner (inodeInitOwner_data env dir mode)
    obtain ⟨hkept₃, hr⟩ := finishNew_keepsData hrest
    exact ⟨trans_of (KeepsData w.sbi.id) (trans_of (KeepsData w.sbi.id) hkept₁ hkept₂) hkept₃, hr⟩

/-- An inode that has the number already is dropped only if nobody had a reference to it. -/
theorem spfsNewInode_taken {parent : Option ℕ} {mode : ℕ} {i : SpfsInode} {r : Except ℤ ℕ}
    (hclean : CleanSlab w) (hat : w.inodes w.sbi.id = some i)
    (hrun : (spfsNewInode env parent mode).run w = .ok r w') :
    (Unused SpfsInode.NoData w → CleanSlab w') ∧ ∀ p, r ≠ .ok p := by
  set w₁ := w.setId ((w.sbi.id + 1) % 2 ^ 64)
  rw [spfsNewInode, run_bind_of_ok (EStateM.run_get w),
    run_bind_of_ok (show (modify (·.setId ((w.sbi.id + 1) % 2 ^ 64)) : Kernel PUnit).run w = .ok () w₁ from rfl)]
    at hrun
  have hat₁ : w₁.inodes w.sbi.id = some i := hat
  obtain ⟨obj, w₂, hget, hrest⟩ := EStateM.run_bind_eq_ok.mp hrun
  obtain ⟨hcached, hnew⟩ := igetLocked_present hat₁ hget
  rw [run_igetLocked_some hat₁ hcached hnew] at hget
  cases hget
  set w₂ := (w₁.setInode w.sbi.id { i with iCount := i.iCount + 1 }).addEvent (.iget w.sbi.id)
  have hat₂ : w₂.inodes w.sbi.id = some { i with iCount := i.iCount + 1 } := Function.update_self ..
  dsimp only at hrest
  rw [run_bind_of_ok (run_getInode_of hat₂), hnew, if_neg (by simp)] at hrest
  obtain ⟨_, w₃, hfailed, hreturn⟩ := EStateM.run_bind_eq_ok.mp hrest
  cases hreturn
  have hclean₂ : CleanSlab w₂ := hclean
  refine ⟨fun hunused => igetFailed_clean hclean₂ hat₂ (fun hcount => ?_) hfailed, fun _ hok => by cases hok⟩
  obtain ⟨hcapacity, hstart⟩ := hunused i hat (Nat.le_zero.mp (Nat.le_of_succ_le_succ hcount))
  exact ⟨hcapacity, hstart⟩

/-- A new inode has no data, and the slab stays clean. -/
theorem spfsNewInode_clean {parent : Option ℕ} {mode : ℕ} {r : Except ℤ ℕ} (hclean : CleanSlab w)
    (hrun : (spfsNewInode env parent mode).run w = .ok r w') :
    (Unused SpfsInode.NoData w → CleanSlab w') ∧ ∀ p, r = .ok p → ∃ i, w'.inodes p = some i ∧ i.NoData := by
  cases hat : w.inodes w.sbi.id with
  | some i =>
    obtain ⟨hslab, hfailed⟩ := spfsNewInode_taken hclean hat hrun
    exact ⟨hslab, fun p hp => absurd hp (hfailed p)⟩
  | none =>
    cases hpick : env.slabPick w.time with
    | none =>
      cases (run_spfsNewInode_noMemory parent hat hpick).symm.trans hrun
      exact ⟨fun _ => hclean, nofun⟩
    | some k =>
      obtain ⟨hkept, rfl⟩ := spfsNewInode_keepsData hat hpick hrun
      obtain ⟨j, hj, hcapacity, hstart⟩ := hkept.data _ (bornWorld_inode w k _)
      obtain ⟨hcap, hst⟩ := clean_newObject hclean w.sbi.id k
      refine ⟨fun _ => SameSlab.clean hkept.slab (clean_withNewObject hclean w.sbi.id k), fun p hp => ?_⟩
      obtain rfl := Except.ok.inj hp
      exact ⟨j, hj, hcapacity.trans hcap, hstart.trans hst⟩

/-- What comes before and after the new inode frees nothing. -/
theorem spfsGenericCreate_clean {parent mode : ℕ} {dentry : Dentry} {r : ℤ × Dentry} (hclean : CleanSlab w)
    (hunused : Unused SpfsInode.NoData w)
    (hrun : (spfsGenericCreate env parent dentry mode).run w = .ok r w') : CleanSlab w' := by
  obtain ⟨dir, w₁, hdir, h₁⟩ := EStateM.run_bind_eq_ok.mp hrun
  obtain rfl : w = w₁ := (within_getInode parent (R := Eq)).of_ok hdir
  obtain ⟨_, w₂, hsuper, h₂⟩ := EStateM.run_bind_eq_ok.mp h₁
  obtain rfl : w = w₂ := (within_superOf dir).of_ok hsuper
  split at h₂
  · next hname =>
    obtain ⟨res, w₃, hnew, h₃⟩ := EStateM.run_bind_eq_ok.mp h₂
    have hclean₃ : CleanSlab w₃ := (spfsNewInode_clean hclean hnew).1 hunused
    cases res with
    | error e => cases h₃
    | ok inode =>
      have hrest : Within SameSlab (do
          modifyInode inode fun i => { i with name := nameArray dentry.name hname }
          let res ← spfsBtreeInsert env (← getInode inode)
          if res ≠ 0 then
            return (res, dentry)
          return (0, { dentry with dInode := some inode }) : Kernel (ℤ × Dentry)) := by
        refine (within_modifyInode_ignored (fun _ _ => rfl) _).bind fun _ => ?_
        refine (within_getInode inode).bind fun i => (within_spfsBtreeInsert env i).bind fun res => ?_
        exact Within.ite (fun _ => Within.pure _) fun _ => Within.pure _
      exact SameSlab.clean (hrest.of_ok h₃) hclean₃
  · cases h₂
    exact hclean

theorem within_link (op : CreateOp) (parent : ℕ) : Within SameSlab (op.link parent) := by
  cases op with
  | create => exact Within.pure _
  | mkdir =>
    unfold CreateOp.link incNlink
    have hput (i : SpfsInode) : Within SameSlab (putInode parent i) := fun _ => rfl
    refine (within_getInode parent).bind fun i => Within.ite (fun _ => ?_) fun _ => hput _
    exact (within_followSb i).bind fun _ => hput _

/-- Creating an inode frees at most the one that has its number. -/
theorem createOp_clean {op : CreateOp} {parent mode : ℕ} {dentry : Dentry} {r : ℤ × Dentry}
    (hclean : CleanSlab w) (hunused : Unused SpfsInode.NoData w)
    (hrun : (op.run env parent dentry mode).run w = .ok r w') : CleanSlab w' := by
  obtain ⟨_, w₁, hkind, h₁⟩ := EStateM.run_bind_eq_ok.mp hrun
  obtain rfl : w = w₁ := (within_bugOn (R := Eq) _).of_ok hkind
  obtain ⟨dir, w₂, hdir, h₂⟩ := EStateM.run_bind_eq_ok.mp h₁
  obtain rfl : w = w₂ := (within_getInode (R := Eq) parent).of_ok hdir
  obtain ⟨_, w₃, hsuper, h₃⟩ := EStateM.run_bind_eq_ok.mp h₂
  obtain rfl : w = w₃ := (within_bugOn (R := Eq) _).of_ok hsuper
  obtain ⟨⟨res, subject⟩, w₄, hgeneric, h₄⟩ := EStateM.run_bind_eq_ok.mp h₃
  have hclean₄ : CleanSlab w₄ := spfsGenericCreate_clean hclean hunused hgeneric
  dsimp only at h₄
  split at h₄
  · cases h₄
    exact hclean₄
  · split at h₄
    · cases h₄
    · next inode hinode =>
      have hrest : Within SameSlab (do
          op.link parent
          let child ← getInode inode
          return (← spfsAddChild env parent child.iIno, subject) : Kernel (ℤ × Dentry)) := by
        refine (within_link op parent).bind fun _ => (within_getInode inode).bind fun child => ?_
        exact (within_spfsAddChild (fun _ _ => rfl) env _).bind fun _ => Within.pure _
      exact SameSlab.clean (hrest.of_ok h₄) hclean₄

/-! ## Histories -/

theorem CleanSlab.evict (hclean : CleanSlab w) (hp : w.inodes p = some i) (hdata : i.NoData) :
    CleanSlab (w.evict p) := by
  intro j hj
  rw [World.evict_slab hp] at hj
  rcases List.mem_cons.mp hj with rfl | hj
  · exact hdata
  · exact hclean j hj

theorem History.clean {w₀ : World} (h : History SpfsInode.NoData w₀ w) (hclean : CleanSlab w₀) :
    CleanSlab w := by
  induction h with
  | start => exact hclean
  | born _ hunused hrun ih => exact (spfsNewInode_clean ih hrun).1 hunused
  | created _ hunused hrun ih => exact createOp_clean ih hunused hrun
  | written _ hrun ih => exact SameSlab.clean ((within_spfsWrite_ignored (fun _ _ => rfl) _ _ _).of_ok hrun) ih
  | added _ hrun ih => exact SameSlab.clean ((within_spfsAddChild (fun _ _ => rfl) _ _).of_ok hrun) ih
  | loaded _ hrun ih => exact spfsInodeById_clean ih hrun
  | freed _ hp hdata ih => exact ih.evict hp hdata

theorem CleanSlab.startsEmpty (h : CleanSlab w) : StartsEmpty w := fun _ _ _ p _ hrun =>
  (spfsNewInode_clean h hrun).2 p rfl

/-- As long as no inode with data was freed, a new inode has no data. -/
theorem spfsNewInode_startsEmpty {w₀ : World} (hclean : CleanSlab w₀) (h : History SpfsInode.NoData w₀ w) :
    StartsEmpty w :=
  (h.clean hclean).startsEmpty

/-- A new inode takes an object of the slab with its data. -/
theorem spfsNewInode_reuses {dir obj : SpfsInode} {k : ℕ} (env : Env) (mode : ℕ) (hp : w.inodes p = some dir)
    (hfree : w.inodes w.sbi.id = none) (hpick : env.slabPick w.time = some k) (hobj : w.slab[k]? = some obj)
    (hkind : sIsReg mode = true ∨ sIsDir mode = true) :
    ∃ w' i, (spfsNewInode env (some p) mode).run w = .ok (.ok w.sbi.id) w' ∧ w'.inodes w.sbi.id = some i ∧
      i.capacity = obj.capacity ∧ i.start = obj.start := by
  have hrun := run_spfsNewInode hp hfree hpick hkind
  rw [hobj, Option.getD_some] at hrun
  have hdata := inodeInitOwner_data env dir mode (newObject w.sbi.id obj)
  exact ⟨_, _, hrun, Function.update_self .., hdata.1, hdata.2⟩

/-- An environment in which the slab hands out its object `k`. -/
def handsOut (k : ℕ) : Env := { Env.calm 9 with slabPick := fun _ => some k }

/-- Once an object with data is in the slab, the next inode can have the data. -/
theorem startsEmpty_iff {dir : SpfsInode} (hp : w.inodes p = some dir) (hfree : w.inodes w.sbi.id = none) :
    StartsEmpty w ↔ CleanSlab w := by
  refine ⟨fun hstarts obj hobj => ?_, CleanSlab.startsEmpty⟩
  obtain ⟨k, hk⟩ := List.mem_iff_getElem?.mp hobj
  obtain ⟨w', i, hrun, hi, hcapacity, hstart⟩ :=
    spfsNewInode_reuses (handsOut k) S_IFREG hp hfree rfl hk (.inl rfl)
  obtain ⟨j, hj, hdata⟩ := hstarts _ _ _ _ _ hrun
  obtain rfl := Option.some.inj (hi.symm.trans hj)
  exact ⟨hcapacity.symm.trans hdata.capacity, hstart.symm.trans hdata.start⟩

end Slab

/-! ## A directory block that is handed on -/

/-- The root and another directory in the cache, both of them empty. -/
def twoDirsWorld : World := (rootWorld.setId 3).setInode 2 (plainDir 2)

/-- The directory gets a child. -/
theorem spfsAddChild_twoDirs :
    ∃ w₁ i, (spfsAddChild (handsOut 0) 2 9).run twoDirsWorld = .ok 0 w₁ ∧ w₁.sbi.id = 3 ∧ w₁.slab = [] ∧
      w₁.inodes = Function.update twoDirsWorld.inodes 2 (some i) ∧ i.capacity = 1 ∧ i.start ≠ 0 := by
  have hp : twoDirsWorld.inodes 2 = some (plainDir 2) := rfl
  have hcall := spfsAddChild_call (handsOut 0) 9 hp rfl
  have hplace : placeIn (handsOut 0) twoDirsWorld (plainDir 2) = .fresh 101 := by decide
  rw [hplace] at hcall
  generalize (spfsAddChild (handsOut 0) 2 9).run twoDirsWorld = r at hcall ⊢
  cases hcall with
  | fresh hs _ hstep => exact ⟨_, _, rfl, congrArg (·.id) hstep.sbi, hstep.slab, hstep.inodes, rfl, hs⟩

theorem spfsNewInode_startsEmpty_freed : StartsEmpty (twoDirsWorld.evict 2) := by
  have hclean : CleanSlab twoDirsWorld := nofun
  exact spfsNewInode_startsEmpty hclean (.freed .start rfl ⟨rfl, rfl⟩)

/-- The directory leaves the cache, and the next file has its block. -/
theorem not_startsEmpty_freed :
    twoDirsWorld.slab = [] ∧ ∃ w w' i, History (fun _ => True) twoDirsWorld w ∧
      (spfsNewInode (handsOut 0) (some 1) S_IFREG).run w = .ok (.ok 3) w' ∧ w'.inodes 3 = some i ∧
      i.capacity = 1 ∧ i.start ≠ 0 ∧ ¬ StartsEmpty w := by
  obtain ⟨w₁, i, hadd, hid, hslab, hinodes, hcapacity, hstart⟩ := spfsAddChild_twoDirs
  have hp : w₁.inodes 2 = some i := by
    rw [hinodes]
    exact Function.update_self ..
  have hfreed : (w₁.evict 2).inodes = Function.update (Function.update twoDirsWorld.inodes 2 (some i)) 2 none := by
    rw [World.evict_inodes, hinodes]
  have hsbi : (w₁.evict 2).sbi.id = 3 := (congrArg (·.id) (sameStore_evict w₁ 2).sbi).trans hid
  have hroot : (w₁.evict 2).inodes 1 = some (plainDir 1) := by
    rw [hfreed]
    rfl
  have hnext : (w₁.evict 2).inodes (w₁.evict 2).sbi.id = none := by
    rw [hfreed, hsbi]
    rfl
  have hobj : (w₁.evict 2).slab[0]? = some i := by
    rw [World.evict_slab hp]
    rfl
  obtain ⟨w', j, hrun, hj, hcapacity', hstart'⟩ :=
    spfsNewInode_reuses (handsOut 0) S_IFREG hroot hnext rfl hobj (.inl rfl)
  have hdirty : ¬ StartsEmpty (w₁.evict 2) := by
    intro hstarts
    have hclean := (startsEmpty_iff hroot hnext).mp hstarts
    exact hstart (hclean i (List.mem_of_getElem? hobj)).start
  rw [hsbi] at hrun hj
  refine ⟨rfl, w₁.evict 2, w', j, .freed (.added .start hadd) hp trivial, hrun, hj, ?_, ?_, hdirty⟩
  · exact hcapacity'.trans hcapacity
  · rw [hstart']
    exact hstart

end Spfs
