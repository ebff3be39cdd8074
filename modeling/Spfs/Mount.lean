-- SUMMARY: sp.c: mounting a device, what is taken up from it, and leaving it again.
import Spfs.FreeList.Exact
import Spfs.Namespace.Create
import Spfs.Super

/-!
# Mounting

`spfs_fill_super_block` takes up the super block and the free list of a device and makes a
root when the tree does not have one. `spfs_put_super` frees the super block: the id
counter, the root of the tree and the free list are written nowhere.
-/

namespace Spfs

open EStateM (Within run_bind_of_ok)

/-! ## The functions of the source -/

/-- The state with a tree that starts at a block. -/
def World.withTree (w : World) (start : ℕ) : World :=
  { w with sbi := { w.sbi with tree := ⟨w.sbi.blockSize, 1, start⟩ } }

def spfsBtreeInit (start : ℕ) : Kernel ℤ := do
  modify (·.withTree start)
  return 0

/-- `kfree` of the super block. None of its fields is looked at again. -/
def spfsPutSuper : Kernel Unit := setSuper .zero

/-- What `spfs_fill_super_block` does up to the free list. -/
def readDevice (env : Env) : Kernel ℤ := do
  let res ← spfsSetBlocksize env spookyFsInitialBlockSize
  if res ≠ 0 then
    return res
  let res ← spfsSuperBlockInit env 0
  if res ≠ 0 then
    return res
  let res ← spfsSetBlocksize env (← get).sbi.blockSize
  if res ≠ 0 then
    return res
  let res ← spfsBtreeInit (← get).sbi.btreeOffset
  if res ≠ 0 then
    return res
  spfsFreeInit env (← get).sbi.freeListOffset

/-- The mode of a new root. -/
def rootMode : ℕ := S_IFDIR ||| S_IRWXU ||| S_IRWXG ||| S_IRWXO

/-- The root that the tree has, or a new one, or an error pointer. -/
def mountRoot (env : Env) : Kernel (Except ℤ ℕ) := do
  match ← spfsInodeById env (← get).sbi.rootId with
  | .error e => return .error e
  | .ok (some root) => return .ok root
  | .ok none =>
    match ← spfsNewInode env none rootMode with
    | .error e => return .error e
    | .ok root =>
      let i ← getInode root
      modify fun w => { w with sbi := { w.sbi with rootId := i.iIno } }
      return .ok root

/-- `spfs_fill_super_block`, without the dentry of the root. -/
def spfsFillSuperBlock (env : Env) : Kernel ℤ := do
  let ok := env.kzallocOk (← get).time
  emit .kzalloc
  if !ok then
    return -ENOMEM
  setSuper .zero
  let res ← readDevice env
  if res ≠ 0 then
    spfsPutSuper
    return res
  match ← mountRoot env with
  | .error res =>
    spfsPutSuper
    return res
  | .ok root =>
    modifyInode root fun i => { i with iUid := env.fsuid, iGid := env.fsgid }
    return 0

/-! ## The device is only read -/

/-- The bytes of the device are the same, in whatever blocks. -/
def SameDevice (w w' : World) : Prop := w'.device = w.device

instance : IsPreorder World SameDevice where
  refl _ := rfl
  trans _ _ _ h h' := Eq.trans h' h

instance : IgnoresLog SameDevice where
  addEvent _ _ := rfl

theorem World.recut_device (w : World) {blockSize : ℕ}
    (h : spookyFsInitialBlockSize ≤ blockSize ∧ blockSize < 2 ^ 32) : SameDevice w (w.recut blockSize h) := by
  funext a
  show cut blockSize (fun a => w.disk (a / w.bSize) (a % w.bSize)) (0 + a / blockSize) (a % blockSize) =
    w.disk (0 + a / w.bSize) (a % w.bSize)
  rw [cut, Nat.zero_add, Nat.zero_add, Nat.div_add_mod']

section Reads

variable {env : Env}

theorem SameStore.sameDevice {w w' : World} (h : SameStore w w') : SameDevice w w' := by
  rw [SameDevice, World.device, World.device, h.disk, h.bSize]

theorem within_setSuper (super : SuperBlock) : Within SameDevice (setSuper super) := fun _ => rfl

theorem within_spfsSetBlocksize (blockSize : ℕ) : Within SameDevice (spfsSetBlocksize env blockSize) := by
  unfold spfsSetBlocksize
  split
  · refine Within.ite (fun _ => ?_) fun _ => Within.pure _
    exact Within.bind (Within.modify fun w => w.recut_device _) fun _ => Within.pure _
  · exact Within.pure _

theorem within_spfsSuperBlockInit (start : ℕ) : Within SameDevice (spfsSuperBlockInit env start) := by
  unfold spfsSuperBlockInit
  refine (within_sbBread env start).bind fun ok => Within.ite (fun _ => Within.pure _) fun _ => ?_
  refine Within.get.bind fun w => (within_parseBuf _ _ _).bind fun r => ?_
  rcases r with ⟨_ | super, pos⟩
  · exact (within_brelse start).bind fun _ => Within.pure _
  refine (within_setSuper super).bind fun _ => Within.ite (fun _ => ?_) fun _ => Within.ite (fun _ => ?_) fun _ => ?_
  all_goals exact (within_brelse start).bind fun _ => Within.pure _

theorem within_spfsFreeInitEntries {R : World → World → Prop} [IsPreorder World R] [IgnoresLog R]
    (hlist : ∀ w fl, R w (w.setFreeList fl)) (env : Env) (s n pos : ℕ) :
    Within R (spfsFreeInitEntries env s n pos) := by
  induction n generalizing pos with
  | zero => exact Within.pure _
  | succ n ih =>
    have hentry : Within R (spfsInitFreeListEntry env s pos) := by
      unfold spfsInitFreeListEntry
      refine Within.get.bind fun w => (within_emit _).bind fun _ => ?_
      exact Within.ite (fun _ => Within.pure _) fun _ => within_parseBuf _ _ _
    unfold spfsFreeInitEntries
    refine hentry.bind fun r => ?_
    rcases r with ⟨_ | node, pos'⟩
    · exact Within.pure _
    · exact Within.get.bind fun w => Within.bind (fun w => hlist w _) fun _ => ih pos'

/-- Loading the free list changes nothing else. -/
theorem within_spfsFreeInit {R : World → World → Prop} [IsPreorder World R] [IgnoresLog R]
    (hlist : ∀ w fl, R w (w.setFreeList fl)) (env : Env) (head : ℕ) : Within R (spfsFreeInit env head) := by
  have hlit (fuel head : ℕ) : Within R (spfsFreeInitLit env fuel head) := by
    induction fuel generalizing head with
    | zero =>
      cases head with
      | zero => exact Within.pure _
      | succ head => exact Within.throw _
    | succ fuel ih =>
      cases head with
      | zero => exact Within.pure _
      | succ head =>
        unfold spfsFreeInitLit
        refine (within_sbBread env _).bind fun ok => Within.ite (fun _ => Within.pure _) fun _ => ?_
        refine (within_parseBuf _ _ _).bind fun r => ?_
        rcases r with ⟨_ | ⟨freeLength, freeNext⟩, pos⟩
        · exact Within.pure _
        refine (within_spfsFreeInitEntries hlist env _ _ _).bind fun ok => ?_
        exact Within.ite (fun _ => Within.pure _) fun _ => (within_brelse _).bind fun _ => ih freeNext
  exact Within.bind (fun w => hlist w _) fun _ => hlit _ _

theorem within_readDevice : Within SameDevice (readDevice env) := by
  unfold readDevice
  refine (within_spfsSetBlocksize _).bind fun res => Within.ite (fun _ => Within.pure _) fun _ => ?_
  refine (within_spfsSuperBlockInit 0).bind fun res => Within.ite (fun _ => Within.pure _) fun _ => ?_
  refine Within.get.bind fun w => (within_spfsSetBlocksize _).bind fun res => ?_
  refine Within.ite (fun _ => Within.pure _) fun _ => Within.get.bind fun w => ?_
  have htree (start : ℕ) : Within SameDevice (spfsBtreeInit start) :=
    Within.bind (fun w => rfl) fun _ => Within.pure _
  refine (htree _).bind fun res => Within.ite (fun _ => Within.pure _) fun _ => Within.get.bind fun w => ?_
  exact within_spfsFreeInit (fun _ _ => rfl) env _

theorem OnlyObject.sameDevice {p : ℕ} {w w' : World} (h : OnlyObject p w w') : SameDevice w w' :=
  h.store.sameDevice

theorem within_spfsNewInode_device (parent : Option ℕ) (mode : ℕ) :
    Within SameDevice (spfsNewInode env parent mode) := by
  have hmodify (p : ℕ) (f : SpfsInode → SpfsInode) : Within SameDevice (modifyInode p f) :=
    (within_getInode p).bind fun _ => fun _ => rfl
  unfold spfsNewInode
  refine Within.get.bind fun w => Within.bind (fun w => rfl) fun _ => ?_
  refine ((within_igetLocked env _).mono fun _ _ => OnlyObject.sameDevice).bind fun obj => ?_
  cases obj with
  | none => exact Within.pure _
  | some p =>
    refine (within_getInode p).bind fun i => Within.ite (fun _ => ?_) fun _ => ?_
    · have hrest : Within SameDevice (do
          let now := env.now (← get).time
          modifyInode p fun i => { i with iCtime := now, iAtime := now, iMtime := now }
          spfsSetupInodeFp p
          unlockNewInode p
          return .ok p : Kernel (Except ℤ ℕ)) := by
        refine Within.get.bind fun w => (hmodify p _).bind fun _ => ?_
        refine ((within_spfsSetupInodeFp p).mono fun _ _ => OnlyObject.sameDevice).bind fun _ => ?_
        exact (hmodify p _).bind fun _ => Within.pure _
      cases parent with
      | none => exact (hmodify p _).bind fun _ => hrest
      | some parent => exact (within_getInode parent).bind fun dir => (hmodify p _).bind fun _ => hrest
    · refine ((within_igetFailed env p).mono fun _ _ => OnlyObject.sameDevice).bind fun _ => ?_
      exact Within.pure _

/-- Mounting writes nothing to the device, whether it comes to an end or not. -/
theorem within_spfsFillSuperBlock : Within SameDevice (spfsFillSuperBlock env) := by
  have hroot : Within SameDevice (mountRoot env) := by
    unfold mountRoot
    refine Within.get.bind fun w => ?_
    refine ((within_spfsInodeById env w.sbi.rootId).mono fun _ _ => OnlyObject.sameDevice).bind fun r => ?_
    rcases r with e | _ | root
    · exact Within.pure _
    · refine (within_spfsNewInode_device none rootMode).bind fun r => ?_
      cases r with
      | error e => exact Within.pure _
      | ok root =>
        exact (within_getInode root).bind fun i => Within.bind (fun _ => rfl) fun _ => Within.pure _
    · exact Within.pure _
  unfold spfsFillSuperBlock
  refine Within.get.bind fun w => (within_emit _).bind fun _ => Within.ite (fun _ => Within.pure _) fun _ => ?_
  refine (within_setSuper _).bind fun _ => within_readDevice.bind fun res => Within.ite (fun _ => ?_) fun _ => ?_
  · exact (within_setSuper _).bind fun _ => Within.pure _
  refine hroot.bind fun r => ?_
  cases r with
  | error e => exact (within_setSuper _).bind fun _ => Within.pure _
  | ok root =>
    exact Within.bind ((within_getInode root).bind fun _ => fun _ => rfl) fun _ => Within.pure _

end Reads

/-! ## What is taken up -/

section TakenUp

variable {env : Env} {w w' : World} {k : ℕ}

/-- The fields of the super block that is stored on a device. -/
abbrev storedSuper (data : Block) : SuperBlock := parsedSuper .zero data

theorem World.read_device (w : World) {pos len : ℕ} (h : pos + len ≤ 512) :
    (w.disk 0).read pos len = w.device.read pos len := by
  have hin : pos + len ≤ w.bSize := h.trans w.le_bSize
  rw [w.shows_device.read hin, Nat.zero_mul, Nat.zero_add]

theorem parsedSuper_device (super : SuperBlock) (w : World) :
    parsedSuper super (w.disk 0) = parsedSuper super w.device := by
  unfold parsedSuper
  rw [w.read_device (by decide), w.read_device (by decide), w.read_device (by decide),
    w.read_device (by decide), w.read_device (by decide), w.read_device (by decide),
    w.read_device (by decide)]

/-- The state differs in the free list and in the log. -/
structure SameMount (w w' : World) : Prop where
  device : SameDevice w w'
  bSize : w'.bSize = w.bSize
  inodes : w'.inodes = w.inodes
  slab : w'.slab = w.slab
  tree : w'.sbi.tree = w.sbi.tree
  id : w'.sbi.id = w.sbi.id

instance : IsPreorder World SameMount where
  refl _ := ⟨rfl, rfl, rfl, rfl, rfl, rfl⟩
  trans _ _ _ h h' := ⟨trans_of SameDevice h.device h'.device, h'.bSize.trans h.bSize, h'.inodes.trans h.inodes,
    h'.slab.trans h.slab, h'.tree.trans h.tree, h'.id.trans h.id⟩

instance : IgnoresLog SameMount where
  addEvent _ _ := ⟨rfl, rfl, rfl, rfl, rfl, rfl⟩

/-- The super block of the device is in memory, and the free list was loaded last. -/
structure TakenUp (env : Env) (w w' : World) : Prop where
  magic : (storedSuper w.device).magic = spookyFsSuperMagic
  bSize : w'.bSize = (storedSuper w.device).blockSize
  tree : w'.sbi.tree = ⟨(storedSuper w.device).blockSize, 1, (storedSuper w.device).btreeOffset⟩
  id : w'.sbi.id = (storedSuper w.device).id
  inodes : w'.inodes = w.inodes
  slab : w'.slab = w.slab
  list : ∃ w₁, SameDevice w w₁ ∧ w₁.bSize = w'.bSize ∧
    (spfsFreeInit env (storedSuper w.device).freeListOffset).run w₁ = .ok 0 w'

theorem run_spfsSetBlocksize {blockSize : ℕ} (h : spookyFsInitialBlockSize ≤ blockSize ∧ blockSize < 2 ^ 32)
    (hok : env.blocksizeOk blockSize = true) :
    (spfsSetBlocksize env blockSize).run w = .ok 0 (w.recut blockSize h) := by
  rw [spfsSetBlocksize, dif_pos h, if_pos hok]
  rfl

theorem spfsSetBlocksize_zero {blockSize : ℕ} (hrun : (spfsSetBlocksize env blockSize).run w = .ok 0 w') :
    ∃ h, w' = w.recut blockSize h := by
  unfold spfsSetBlocksize at hrun
  split at hrun
  · next h =>
    split at hrun
    · cases hrun
      exact ⟨h, rfl⟩
    · cases hrun
  · cases hrun

/-- A super block that is accepted has the magic number, and its fields are those of the device. -/
theorem spfsSuperBlockInit_zero (h : (spfsSuperBlockInit env 0).run w = .ok 0 w') :
    (storedSuper w.device).magic = spookyFsSuperMagic ∧
      OnlyLogs { w with sbi := parsedSuper w.sbi w.device } w' := by
  by_cases hio : env.ioOk w.time 0 = true
  · obtain ⟨w₁, hrun, hlogs⟩ := run_spfsSuperBlockInit 0 hio
    rw [parsedSuper_device] at hrun hlogs
    rw [hrun] at h
    obtain ⟨hcheck, rfl⟩ := EStateM.Result.ok.inj h
    refine ⟨?_, hlogs⟩
    unfold superCheck at hcheck
    split at hcheck
    · next haccepted => exact haccepted.1
    · exact absurd hcheck (by decide)
  · have hfail := Bool.eq_false_iff.mpr hio
    rw [spfsSuperBlockInit, EStateM.run_check_of_false (run_sbBread_failed hfail)] at h
    cases h

theorem readDevice_zero (h : (readDevice env).run w = .ok 0 w') : TakenUp env w w' := by
  obtain ⟨res, w₁, hsize, h₁⟩ := EStateM.run_bind_eq_ok.mp h
  split at h₁
  · cases h₁
    contradiction
  next hres =>
  obtain rfl : res = 0 := not_not.mp hres
  obtain ⟨hsize₁, rfl⟩ := spfsSetBlocksize_zero hsize
  obtain ⟨res', w₂, hsuper, h₂⟩ := EStateM.run_bind_eq_ok.mp h₁
  split at h₂
  · cases h₂
    contradiction
  next hres =>
  obtain rfl : res' = 0 := not_not.mp hres
  obtain ⟨hmagic, hlogs⟩ := spfsSuperBlockInit_zero hsuper
  have hrecut : (w.recut spookyFsInitialBlockSize hsize₁).device = w.device := w.recut_device hsize₁
  rw [hrecut] at hmagic hlogs
  obtain ⟨_, _, hget, h₂⟩ := EStateM.run_bind_eq_ok.mp h₂
  cases hget
  obtain ⟨res₃, w₃, hsize', h₃⟩ := EStateM.run_bind_eq_ok.mp h₂
  split at h₃
  · cases h₃
    contradiction
  next hres =>
  obtain rfl : res₃ = 0 := not_not.mp hres
  obtain ⟨hsize₃, rfl⟩ := spfsSetBlocksize_zero hsize'
  obtain ⟨_, _, hget, h₃⟩ := EStateM.run_bind_eq_ok.mp h₃
  cases hget
  obtain ⟨res₄, w₄, htree, h₄⟩ := EStateM.run_bind_eq_ok.mp h₃
  cases htree
  split at h₄
  · contradiction
  obtain ⟨_, _, hget, h₄⟩ := EStateM.run_bind_eq_ok.mp h₄
  cases hget
  have hkept : SameMount _ w' :=
    (within_spfsFreeInit (fun _ _ => ⟨rfl, rfl, rfl, rfl, rfl, rfl⟩) env _).of_ok h₄
  have hsbi : w₂.sbi = parsedSuper w.sbi w.device := hlogs.sbi
  have hblockSize : w₂.sbi.blockSize = (storedSuper w.device).blockSize := congrArg (·.blockSize) hsbi
  have hoffset : w₂.sbi.btreeOffset = (storedSuper w.device).btreeOffset := congrArg (·.btreeOffset) hsbi
  have hhead : w₂.sbi.freeListOffset = (storedSuper w.device).freeListOffset := congrArg (·.freeListOffset) hsbi
  have hdevice : (w₂.recut w₂.sbi.blockSize hsize₃).device = w.device :=
    (w₂.recut_device hsize₃).trans (hlogs.sameStore.sameDevice.trans hrecut)
  refine ⟨hmagic, hkept.bSize.trans hblockSize, hkept.tree.trans ?_, hkept.id.trans (congrArg (·.id) hsbi),
    hkept.inodes.trans hlogs.inodes, hkept.slab.trans hlogs.slab,
    (w₂.recut w₂.sbi.blockSize hsize₃).withTree w₂.sbi.btreeOffset, hdevice, hkept.bSize.symm, ?_⟩
  · rw [← hblockSize, ← hoffset]
    rfl
  · rw [← hhead]
    exact h₄

/-- The state with the super block that `kzalloc` made. -/
def World.withZeroSuper (w : World) : World := { w.addEvent .kzalloc with sbi := .zero }

/-- A mount that succeeds took up the device and has a root. -/
theorem spfsFillSuperBlock_zero (h : (spfsFillSuperBlock env).run w = .ok 0 w') :
    ∃ w₁ w₂, (readDevice env).run w.withZeroSuper = .ok 0 w₁ ∧
      ((mountRoot env).run w₁ = .ok (.error 0) w₂ ∨ ∃ root, (mountRoot env).run w₁ = .ok (.ok root) w₂ ∧
        (modifyInode root fun i => { i with iUid := env.fsuid, iGid := env.fsgid }).run w₂ = .ok () w') := by
  obtain ⟨_, _, hget, h⟩ := EStateM.run_bind_eq_ok.mp h
  cases hget
  obtain ⟨_, _, hemit, h⟩ := EStateM.run_bind_eq_ok.mp h
  cases hemit
  split at h
  · cases h
  obtain ⟨_, _, hset, h⟩ := EStateM.run_bind_eq_ok.mp h
  cases hset
  obtain ⟨res, w₁, hread, h₁⟩ := EStateM.run_bind_eq_ok.mp h
  split at h₁
  · next hres =>
    cases h₁
    exact absurd rfl hres
  next hres =>
  obtain rfl : res = 0 := not_not.mp hres
  obtain ⟨r, w₂, hroot, h₂⟩ := EStateM.run_bind_eq_ok.mp h₁
  refine ⟨w₁, w₂, hread, ?_⟩
  cases r with
  | error e =>
    cases h₂
    exact .inl hroot
  | ok root =>
    obtain ⟨_, w₃, hmodify, hreturn⟩ := EStateM.run_bind_eq_ok.mp h₂
    cases hreturn
    exact .inr ⟨root, hroot, hmodify⟩

theorem run_spfsFillSuperBlock_start (hok : env.kzallocOk w.time = true) :
    (spfsFillSuperBlock env).run w = (do
      let res ← readDevice env
      if res ≠ 0 then
        spfsPutSuper
        return res
      match ← mountRoot env with
      | .error res =>
        spfsPutSuper
        return res
      | .ok root =>
        modifyInode root fun i => { i with iUid := env.fsuid, iGid := env.fsgid }
        return 0 : Kernel ℤ).run w.withZeroSuper := by
  have hset : (setSuper .zero).run (w.addEvent .kzalloc) = .ok () w.withZeroSuper := rfl
  rw [spfsFillSuperBlock, run_bind_of_ok (EStateM.run_get w), run_bind_of_ok (run_emit _ w), hok, if_neg (by simp)]
  exact run_bind_of_ok hset

theorem run_spfsFillSuperBlock {w₁ w₂ : World} {root : ℕ} {i : SpfsInode} (hok : env.kzallocOk w.time = true)
    (hread : (readDevice env).run w.withZeroSuper = .ok 0 w₁)
    (hroot : (mountRoot env).run w₁ = .ok (.ok root) w₂) (hp : w₂.inodes root = some i) :
    (spfsFillSuperBlock env).run w =
      .ok 0 (w₂.setInode root { i with iUid := env.fsuid, iGid := env.fsgid }) := by
  rw [run_spfsFillSuperBlock_start hok, run_bind_of_ok hread, if_neg (by simp), run_bind_of_ok hroot]
  dsimp only
  rw [run_bind_of_ok (run_modifyInode_of hp)]
  rfl

/-- What the device says is not a super block, and mounting fails. -/
theorem run_spfsFillSuperBlock_refused (hok : env.kzallocOk w.time = true)
    (hsize : env.blocksizeOk spookyFsInitialBlockSize = true) (hio : ∀ t, env.ioOk t 0 = true)
    (hmagic : (storedSuper w.device).magic ≠ spookyFsSuperMagic) :
    ∃ w', (spfsFillSuperBlock env).run w = .ok (-EINVAL) w' := by
  have hinitial : spookyFsInitialBlockSize ≤ spookyFsInitialBlockSize ∧ spookyFsInitialBlockSize < 2 ^ 32 := by
    decide
  set w₁ := w.withZeroSuper.recut spookyFsInitialBlockSize hinitial
  have hdev₁ : w₁.device = w.device := w.withZeroSuper.recut_device hinitial
  obtain ⟨w₂, hsuper, -⟩ := run_spfsSuperBlockInit 0 (hio w₁.time)
  have hcheck : superCheck (parsedSuper w₁.sbi (w₁.disk 0)) = -EINVAL := by
    rw [parsedSuper_device, hdev₁]
    exact if_neg fun h => hmagic h.1
  rw [hcheck] at hsuper
  have hread : (readDevice env).run w.withZeroSuper = .ok (-EINVAL) w₂ := by
    rw [readDevice, run_bind_of_ok (run_spfsSetBlocksize hinitial hsize), if_neg (by simp), run_bind_of_ok hsuper,
      if_pos (by decide)]
    rfl
  rw [run_spfsFillSuperBlock_start hok, run_bind_of_ok hread, if_pos (by decide)]
  exact ⟨_, rfl⟩

/-- A device without the magic number cannot be mounted. -/
theorem spfsFillSuperBlock_magic (h : (spfsFillSuperBlock env).run w = .ok 0 w') :
    (storedSuper w.device).magic = spookyFsSuperMagic := by
  obtain ⟨w₁, w₂, hread, -⟩ := spfsFillSuperBlock_zero h
  exact (readDevice_zero hread).magic

/-! ## The root of an empty tree -/

/-- No inode is found in an empty tree, and what was put in the cache for it is dropped. -/
theorem spfsInodeById_emptyTree (env : Env) {ino : ℕ} (hstart : w.sbi.tree.start = 0)
    (hfree : w.inodes ino = none) :
    ∃ r w', (spfsInodeById env ino).run w = .ok r w' ∧
      (r = .error (-ENOMEM) ∧ env.slabPick w.time = none ∨ r = .ok none) ∧
      SameStore w w' ∧ w'.inodes = w.inodes ∧ w'.slab.length ≤ w.slab.length + 1 := by
  cases hpick : env.slabPick w.time with
  | none =>
    have hget : (igetLocked env ino).run w = .ok none (w.addEvent (.iget ino)) := by
      rw [run_igetLocked_none ino hfree, hpick]
    rw [spfsInodeById, run_bind_of_ok hget]
    exact ⟨_, _, rfl, .inl ⟨rfl, rfl⟩, IgnoresLog.addEvent w _, rfl, Nat.le_succ _⟩
  | some k =>
    set i := newObject ino (w.slab[k]?.getD spfsInodeInitOnce)
    set w₁ := withNewObject w ino k with hw₁
    have hget : (igetLocked env ino).run w = .ok (some ino) w₁ := by
      rw [run_igetLocked_none ino hfree, hpick]
    have hat : w₁.inodes ino = some i := Function.update_self _ _ _
    have hlookup : (spfsBtreeLookup env ino i).run w₁ = .ok (1, i) w₁ := spfsBtreeModify_empty hstart
    have hnew : i.iNew = true := rfl
    rw [spfsInodeById, run_bind_of_ok hget]
    dsimp only
    rw [run_bind_of_ok (run_getInode_of hat), hnew, if_neg (by simp), run_bind_of_ok hlookup]
    dsimp only
    rw [if_pos (by decide), run_bind_of_ok (run_igetFailed hat), if_pos (show i.iCount ≤ 1 from le_rfl)]
    have hat' : (w₁.setInode ino (i.failed env w₁.time)).inodes ino = some (i.failed env w₁.time) :=
      Function.update_self _ _ _
    refine ⟨_, _, rfl, .inr rfl, ?_, ?_, ?_⟩
    · exact trans_of SameStore (trans_of SameStore (sameStore_withNewObject w ino k) (sameStore_setInode _ _ _))
        (sameStore_evict _ _)
    · rw [World.evict_inodes, World.setInode_inodes, Function.update_idem, hw₁, ← hfree]
      show Function.update (Function.update w.inodes ino (some i)) ino (w.inodes ino) = w.inodes
      rw [Function.update_idem, Function.update_eq_self]
    · rw [World.evict_slab hat', List.length_cons]
      exact Nat.succ_le_succ (List.length_eraseIdx_le w.slab k)

/-- The object of a new root, made from an object of the slab. -/
def rootInode (env : Env) (t id : ℕ) (obj : SpfsInode) : SpfsInode :=
  SpfsInode.born env t { newObject id obj with iMode := rootMode }

/-- The root has the next number, and it is all that the cache holds. -/
structure NewRoot (env : Env) (w w' : World) : Prop where
  bSize : w'.bSize = w.bSize
  tree : w'.sbi.tree = w.sbi.tree
  freeList : w'.sbi.freeList = w.sbi.freeList
  id : w'.sbi.id = (w.sbi.id + 1) % 2 ^ 64
  inodes : ∃ (slab : List SpfsInode) (k t t' : ℕ), slab.length ≤ w.slab.length + 1 ∧ env.slabPick t = some k ∧
    w'.inodes = Function.update (fun _ => none) w.sbi.id
      (some (rootInode env t' w.sbi.id (slab[k]?.getD spfsInodeInitOnce)))

/-- The root is a new inode when the tree is empty. -/
theorem mountRoot_emptyTree (env : Env) (hstart : w.sbi.tree.start = 0) (hnone : w.inodes = fun _ => none) :
    ∃ r w', (mountRoot env).run w = .ok r w' ∧
      (r = .error (-ENOMEM) ∧ (∃ t, env.slabPick t = none) ∨ r = .ok w.sbi.id ∧ NewRoot env w w') := by
  have hfree (ino : ℕ) : w.inodes ino = none := congrFun hnone ino
  obtain ⟨r, w₁, hlookup, hr, hstore, hinodes, hslab⟩ := spfsInodeById_emptyTree env hstart (hfree w.sbi.rootId)
  rw [mountRoot, run_bind_of_ok (EStateM.run_get w), run_bind_of_ok hlookup]
  rcases hr with ⟨rfl, hpick⟩ | rfl
  · exact ⟨_, _, rfl, .inl ⟨rfl, _, hpick⟩⟩
  have hsbi : w₁.sbi = w.sbi := hstore.sbi
  have hnone₁ : w₁.inodes w₁.sbi.id = none := by
    rw [hinodes]
    exact hfree _
  dsimp only
  cases hpick : env.slabPick w₁.time with
  | none =>
    have hnew := @run_spfsNewInode_noMemory env rootMode w₁ none hnone₁ hpick
    rw [run_bind_of_ok hnew]
    exact ⟨_, _, rfl, .inl ⟨rfl, _, hpick⟩⟩
  | some k =>
    have hnew := @run_spfsNewInode_root env k rootMode w₁ hnone₁ hpick (.inr rfl)
    rw [run_bind_of_ok hnew]
    dsimp only
    rw [run_bind_of_ok (run_getInode_of (bornWorld_inode w₁ k _))]
    refine ⟨_, _, rfl, .inr ⟨by rw [hsbi], hstore.bSize, congrArg (·.tree) hsbi, congrArg (·.freeList) hsbi, ?_,
      w₁.slab, k, w₁.time, w₁.time + 1, hslab, hpick, ?_⟩⟩
    · show (w₁.sbi.id + 1) % 2 ^ 64 = _
      rw [hsbi]
    · show Function.update w₁.inodes w₁.sbi.id _ = _
      rw [hinodes, hnone, hsbi]
      rfl

/-- A device that was mounted: its tree is empty, and the root is all that the cache holds. -/
structure Unwritten (data : Block) (w : World) : Prop where
  device : w.device = data
  start : w.sbi.tree.start = 0
  id : w.sbi.id = (storedSuper data).id + 1
  dirs : ∀ p i, w.inodes p = some i → sIsReg i.iMode = false

theorem NewRoot.root (h : NewRoot env w w') :
    ∃ i, w'.inodes = Function.update (fun _ => none) w.sbi.id (some i) ∧ sIsReg i.iMode = false := by
  obtain ⟨slab, k, t, t', -, -, hinodes⟩ := h.inodes
  exact ⟨_, hinodes, show sIsReg rootMode = false by decide⟩

/-- What is in the cache is the root. -/
theorem mem_onlyRoot {root p : ℕ} {i j : SpfsInode}
    (hp : (Function.update (fun _ => none) root (some j) : ℕ → Option SpfsInode) p = some i) : i = j := by
  by_cases hne : p = root
  · subst hne
    rw [Function.update_self] at hp
    exact (Option.some.inj hp).symm
  · rw [Function.update_of_ne hne] at hp
    cases hp

/-- Mounting a device whose tree is empty gives a new root the number that is stored. -/
theorem spfsFillSuperBlock_unwritten (hempty : (storedSuper w.device).btreeOffset = 0)
    (hnone : w.inodes = fun _ => none) (h : (spfsFillSuperBlock env).run w = .ok 0 w') :
    Unwritten w.device w' := by
  have hdevice : w'.device = w.device := within_spfsFillSuperBlock.of_ok h
  obtain ⟨w₁, w₂, hread, hrun⟩ := spfsFillSuperBlock_zero h
  have htaken := readDevice_zero hread
  have hstart₁ : w₁.sbi.tree.start = 0 := (congrArg (·.start) htaken.tree).trans hempty
  have hnone₁ : w₁.inodes = fun _ => none := htaken.inodes.trans hnone
  have hid₁ : w₁.sbi.id = (storedSuper w.device).id := htaken.id
  obtain ⟨r, w₃, hroot, hr⟩ := mountRoot_emptyTree env hstart₁ hnone₁
  rw [hroot] at hrun
  rcases hr with ⟨rfl, -⟩ | ⟨rfl, hnew⟩
  · rcases hrun with herror | ⟨root, herror, -⟩ <;> cases herror
  rcases hrun with herror | ⟨root, hok, hmodify⟩
  · cases herror
  cases hok
  obtain ⟨i, hinodes, hkind⟩ := hnew.root
  have hat : w₂.inodes w₁.sbi.id = some i := by
    rw [hinodes]
    exact Function.update_self ..
  rw [run_modifyInode_of hat] at hmodify
  cases hmodify
  have hlt : (storedSuper w.device).id < 2 ^ 32 := w.device.decode_read_lt 12 4
  refine ⟨hdevice, ?_, ?_, fun p j hp => ?_⟩
  · exact (congrArg (·.start) hnew.tree).trans hstart₁
  · show w₂.sbi.id = _
    rw [hnew.id, hid₁]
    omega
  · rw [World.setInode_inodes, hinodes, Function.update_idem] at hp
    rw [mem_onlyRoot hp]
    exact hkind

end TakenUp

end Spfs
