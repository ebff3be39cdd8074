-- SUMMARY: The kernel side of the model: block buffers, locks, the inode cache, and everything the environment decides.
import Mathlib.Logic.Function.Basic
import Spfs.Lib.Command
import Spfs.Shared

/-!
# Kernel

The state the file system runs in and the kernel services it calls. `World` is
what the code changes. `Env` is what it has no say in: which reads and
allocations succeed, what uninitialised stack memory holds, which freed object
the slab hands back, the clock, and pending signals. Each answer may depend on
the moment of the call, so every call that asks for one leaves an event in the
log and the length of the log serves as the time.
-/

namespace Spfs

/-- The ways a call ends without returning. -/
inductive Fault where
  /-- a `BUG_ON` or `BUG()` was reached -/
  | bug
  /-- memory outside of the object at hand was read or written -/
  | oob
  /-- a null, error or wild pointer was followed -/
  | nullDeref
  /-- the call waits for a mutex that its holder never releases -/
  | blocked
  /-- the bound on iterations of a `goto` loop was used up -/
  | fuel
  /-- a program divided by zero -/
  | sigfpe
deriving DecidableEq, Repr

/-- What the kernel gets to see of a call, newest first in the log. -/
inductive Event where
  | bread (sector : ℕ) (ok : Bool)
  | brelse (sector : ℕ)
  | dirty (sector : ℕ)
  | lock (inode : ℕ)
  | unlock (inode : ℕ)
  | alloc (sector blocks : ℕ)
  | kzalloc
  | iget (inode : ℕ)
deriving DecidableEq, Repr

structure Env where
  /-- does `sb_bread` of a sector succeed? -/
  ioOk : ℕ → ℕ → Bool
  /-- does `kzalloc` succeed? -/
  kzallocOk : ℕ → Bool
  /-- the freed object that `kmem_cache_alloc` reuses, `none` when it fails; an
  index past the end of the pool stands for a newly constructed object -/
  slabPick : ℕ → Option ℕ
  /-- does a signal interrupt the wait for a mutex? -/
  signal : ℕ → Bool
  /-- the stack memory from the address of a parameter on -/
  stack : ℕ → Name
  /-- the content of an uninitialised `struct spfs_inode` on the stack -/
  junk : ℕ → SpfsInode
  /-- `current_time` in seconds -/
  now : ℕ → ℕ
  fsuid : ℕ
  fsgid : ℕ
  /-- does `sb_set_blocksize` accept the size? -/
  blocksizeOk : ℕ → Bool
  /-- iterations after which a `goto` loop is given up as endless -/
  fuel : ℕ

/-- An environment that grants every request and never interferes. Memory that
was not initialised is zero there. -/
def Env.calm (fuel : ℕ) : Env where
  ioOk _ _ := true
  kzallocOk _ := true
  slabPick n := some n
  signal _ := false
  stack _ := spfsInodeInitOnce.name
  junk _ := spfsInodeInitOnce
  now _ := 0
  fsuid := 0
  fsgid := 0
  blocksizeOk _ := true
  fuel := fuel

/-- Every read of a block and every allocation of memory succeeds. -/
structure Env.Grants (env : Env) : Prop where
  io : ∀ t s, env.ioOk t s = true
  kzalloc : ∀ t, env.kzallocOk t = true

theorem Env.calm_grants (fuel : ℕ) : (Env.calm fuel).Grants := ⟨fun _ _ => rfl, fun _ => rfl⟩

/-- The state: the block size and the content of the block buffers, the log, the
mounted super block, the inode cache by inode number, and the freed inode
objects of the slab. The block size is the initial one or a 32-bit number that
`spfs_super_block_init` found to be no smaller. -/
structure World where
  bSize : ℕ
  bSize_bounds : spookyFsInitialBlockSize ≤ bSize ∧ bSize < 2 ^ 32
  disk : ℕ → Block
  log : List Event
  sbi : SuperBlock
  inodes : ℕ → Option SpfsInode
  slab : List SpfsInode

abbrev Kernel := EStateM Fault World

/-- A device cut into blocks of `bs` bytes. A block goes on into the next one. -/
def cut (bs : ℕ) (data : Block) : ℕ → Block := fun s i => data (s * bs + i)

namespace World

theorem bounds_512 : spookyFsInitialBlockSize ≤ 512 ∧ 512 < 2 ^ 32 := by decide

theorem le_bSize (w : World) : 512 ≤ w.bSize := w.bSize_bounds.1
theorem bSize_lt (w : World) : w.bSize < 2 ^ 32 := w.bSize_bounds.2

def time (w : World) : ℕ := w.log.length

/-- The blocks of `w` are those of the device. -/
def Shows (w : World) (data : Block) : Prop := ∀ s i, i < w.bSize → w.disk s i = data (s * w.bSize + i)

/-- A read inside a block is a read of the device. -/
theorem Shows.read {w : World} {data : Block} (h : w.Shows data) {s pos len : ℕ}
    (hin : pos + len ≤ w.bSize) : (w.disk s).read pos len = data.read (s * w.bSize + pos) len := by
  apply List.map_congr_left
  intro i hi
  have := List.mem_range.mp hi
  rw [h s _ (by omega), Nat.add_assoc]

def setBlock (w : World) (s : ℕ) (b : Block) : World :=
  { w with disk := Function.update w.disk s b }

def addEvent (w : World) (e : Event) : World :=
  { w with log := e :: w.log }

def setInode (w : World) (p : ℕ) (i : SpfsInode) : World :=
  { w with inodes := Function.update w.inodes p (some i) }

def setFreeList (w : World) (fl : FreeList) : World :=
  { w with sbi := { w.sbi with freeList := fl } }

def setTreeStart (w : World) (s : ℕ) : World :=
  { w with sbi := { w.sbi with tree := { w.sbi.tree with start := s } } }

/-! Field lemmas, so that no proof has to unfold an update. -/

section Fields

variable (w : World) (s p : ℕ) (b : Block) (e : Event) (i : SpfsInode) (fl : FreeList)

@[simp] theorem setBlock_bSize : (w.setBlock s b).bSize = w.bSize := rfl
@[simp] theorem setBlock_disk : (w.setBlock s b).disk = Function.update w.disk s b := rfl
@[simp] theorem setBlock_time : (w.setBlock s b).time = w.time := rfl
@[simp] theorem setBlock_log : (w.setBlock s b).log = w.log := rfl
@[simp] theorem setBlock_sbi : (w.setBlock s b).sbi = w.sbi := rfl
@[simp] theorem setBlock_inodes : (w.setBlock s b).inodes = w.inodes := rfl
@[simp] theorem setBlock_slab : (w.setBlock s b).slab = w.slab := rfl
@[simp] theorem setBlock_setBlock (b' : Block) :
    (w.setBlock s b).setBlock s b' = w.setBlock s b' := by simp [setBlock]
@[simp] theorem setBlock_self : w.setBlock s (w.disk s) = w := by simp [setBlock]

@[simp] theorem addEvent_time : (w.addEvent e).time = w.time + 1 := rfl
@[simp] theorem addEvent_bSize : (w.addEvent e).bSize = w.bSize := rfl
@[simp] theorem addEvent_disk : (w.addEvent e).disk = w.disk := rfl
@[simp] theorem addEvent_log : (w.addEvent e).log = e :: w.log := rfl
@[simp] theorem addEvent_sbi : (w.addEvent e).sbi = w.sbi := rfl
@[simp] theorem addEvent_inodes : (w.addEvent e).inodes = w.inodes := rfl
@[simp] theorem addEvent_slab : (w.addEvent e).slab = w.slab := rfl

@[simp] theorem setInode_bSize : (w.setInode p i).bSize = w.bSize := rfl
@[simp] theorem setInode_disk : (w.setInode p i).disk = w.disk := rfl
@[simp] theorem setInode_time : (w.setInode p i).time = w.time := rfl
@[simp] theorem setInode_log : (w.setInode p i).log = w.log := rfl
@[simp] theorem setInode_sbi : (w.setInode p i).sbi = w.sbi := rfl
@[simp] theorem setInode_inodes :
    (w.setInode p i).inodes = Function.update w.inodes p (some i) := rfl
@[simp] theorem setInode_slab : (w.setInode p i).slab = w.slab := rfl
@[simp] theorem setInode_setInode (i' : SpfsInode) :
    (w.setInode p i).setInode p i' = w.setInode p i' := by simp [setInode]

@[simp] theorem setFreeList_bSize : (w.setFreeList fl).bSize = w.bSize := rfl
@[simp] theorem setFreeList_disk : (w.setFreeList fl).disk = w.disk := rfl
@[simp] theorem setFreeList_time : (w.setFreeList fl).time = w.time := rfl
@[simp] theorem setFreeList_log : (w.setFreeList fl).log = w.log := rfl
@[simp] theorem setFreeList_freeList : (w.setFreeList fl).sbi.freeList = fl := rfl
@[simp] theorem setFreeList_tree : (w.setFreeList fl).sbi.tree = w.sbi.tree := rfl
@[simp] theorem setFreeList_inodes : (w.setFreeList fl).inodes = w.inodes := rfl
@[simp] theorem setFreeList_slab : (w.setFreeList fl).slab = w.slab := rfl

@[simp] theorem setTreeStart_bSize : (w.setTreeStart s).bSize = w.bSize := rfl
@[simp] theorem setTreeStart_disk : (w.setTreeStart s).disk = w.disk := rfl
@[simp] theorem setTreeStart_time : (w.setTreeStart s).time = w.time := rfl
@[simp] theorem setTreeStart_log : (w.setTreeStart s).log = w.log := rfl
@[simp] theorem setTreeStart_start : (w.setTreeStart s).sbi.tree.start = s := rfl
@[simp] theorem setTreeStart_freeList : (w.setTreeStart s).sbi.freeList = w.sbi.freeList := rfl
@[simp] theorem setTreeStart_inodes : (w.setTreeStart s).inodes = w.inodes := rfl
@[simp] theorem setTreeStart_slab : (w.setTreeStart s).slab = w.slab := rfl

end Fields

end World

/-! ## Assertions and the log -/

def bugOn {σ : Type} (c : Prop) [Decidable c] : EStateM Fault σ Unit :=
  if c then throw .bug else pure ()

@[simp] theorem run_bugOn {σ : Type} (c : Prop) [Decidable c] (s : σ) :
    (bugOn c).run s = if c then .error .bug s else .ok () s := by
  unfold bugOn
  split <;> rfl

def emit (e : Event) : Kernel Unit :=
  modify (·.addEvent e)

@[simp] theorem run_emit (e : Event) (w : World) : (emit e).run w = .ok () (w.addEvent e) := rfl

/-! ## Buffers

A `struct buffer_head *` is the number of its sector: the buffer cache keeps one
buffer for each sector, so what is written through one `bh` is seen by every
later `sb_bread` of the sector. -/

/-- Read a block; `false` stands for the null buffer. -/
def sbBread (env : Env) (s : ℕ) : Kernel Bool := do
  let w ← get
  emit (.bread s (env.ioOk w.time s))
  return env.ioOk w.time s

@[simp] theorem run_sbBread (env : Env) (s : ℕ) (w : World) :
    (sbBread env s).run w =
      .ok (env.ioOk w.time s) (w.addEvent (.bread s (env.ioOk w.time s))) := rfl

theorem run_sbBread_ok {env : Env} {s : ℕ} {w : World} (hio : env.ioOk w.time s = true) :
    (sbBread env s).run w = .ok true (w.addEvent (.bread s true)) := by
  rw [run_sbBread, hio]

theorem run_sbBread_failed {env : Env} {s : ℕ} {w : World} (hio : env.ioOk w.time s = false) :
    (sbBread env s).run w = .ok false (w.addEvent (.bread s false)) := by
  rw [run_sbBread, hio]

def brelse (s : ℕ) : Kernel Unit := emit (.brelse s)

@[simp] theorem run_brelse (s : ℕ) (w : World) :
    (brelse s).run w = .ok () (w.addEvent (.brelse s)) := rfl

def markBufferDirty (s : ℕ) : Kernel Unit := emit (.dirty s)

@[simp] theorem run_markBufferDirty (s : ℕ) (w : World) :
    (markBufferDirty s).run w = .ok () (w.addEvent (.dirty s)) := rfl

/-- The bytes of a buffer and the position of the next field in it. -/
structure Buf where
  data : Block
  pos : ℕ

/-- Run a reader of fields on the buffer of sector `s` from `pos` on. Besides its
result it yields the position it stopped at. -/
def parseBuf {α : Type} (s pos : ℕ) (p : ℕ → Block → EStateM Fault ℕ α) : Kernel (α × ℕ) := do
  let w ← get
  match (p w.bSize (w.disk s)).run pos with
  | .ok a pos' => return (a, pos')
  | .error f _ => throw f

theorem run_parseBuf {α : Type} (s pos : ℕ) (p : ℕ → Block → EStateM Fault ℕ α) (w : World) :
    (parseBuf s pos p).run w =
      match (p w.bSize (w.disk s)).run pos with
      | .ok a pos' => .ok (a, pos') w
      | .error f _ => .error f w := by
  simp only [parseBuf, EStateM.run_bind_match, EStateM.run_get]
  split <;> rfl

/-- Run a writer of fields on the buffer of sector `s` from `pos` on. -/
def makeBuf {α : Type} (s pos : ℕ) (m : ℕ → EStateM Fault Buf α) : Kernel (α × ℕ) := do
  let w ← get
  match (m w.bSize).run ⟨w.disk s, pos⟩ with
  | .ok a buf =>
    set (w.setBlock s buf.data)
    return (a, buf.pos)
  | .error f buf =>
    set (w.setBlock s buf.data)
    throw f

theorem run_makeBuf {α : Type} (s pos : ℕ) (m : ℕ → EStateM Fault Buf α) (w : World) :
    (makeBuf s pos m).run w =
      match (m w.bSize).run ⟨w.disk s, pos⟩ with
      | .ok a buf => .ok (a, buf.pos) (w.setBlock s buf.data)
      | .error f buf => .error f (w.setBlock s buf.data) := by
  simp only [makeBuf, EStateM.run_bind_match, EStateM.run_get]
  split <;> rfl

/-! ## The inode cache

A pointer to an inode object is the number under which the object is hashed. -/

def getInode (p : ℕ) : Kernel SpfsInode := do
  match (← get).inodes p with
  | some i => return i
  | none => throw .nullDeref

theorem run_getInode (p : ℕ) (w : World) :
    (getInode p).run w =
      match w.inodes p with
      | some i => .ok i w
      | none => .error .nullDeref w := by
  simp only [getInode, EStateM.run_bind_match, EStateM.run_get]
  split <;> rfl

theorem run_getInode_of {p : ℕ} {w : World} {i : SpfsInode} (h : w.inodes p = some i) :
    (getInode p).run w = .ok i w := by
  simp [run_getInode, h]

/-- `inode->i_sb->s_fs_info`. -/
def followSb (i : SpfsInode) : Kernel SuperBlock := do
  match i.iSb with
  | .sb => return (← get).sbi
  | _ => throw .nullDeref

theorem run_followSb {i : SpfsInode} (h : i.iSb = .sb) (w : World) :
    (followSb i).run w = .ok w.sbi w := by
  rw [followSb, h]
  rfl

/-- `followSb` after `BUG_ON(!sb)`. -/
def superOf (i : SpfsInode) : Kernel SuperBlock := do
  bugOn (i.iSb = .null)
  followSb i

theorem run_superOf {i : SpfsInode} (h : i.iSb = .sb) (w : World) :
    (superOf i).run w = .ok w.sbi w := by
  have hok : (bugOn (i.iSb = .null) : Kernel Unit).run w = .ok () w := by
    rw [run_bugOn, if_neg (by rw [h]; decide)]
  rw [superOf, EStateM.run_bind_of_ok hok, run_followSb h]

/-- Following the pointers to the super block changes nothing. -/
theorem followSb_same {i : SpfsInode} {sbi : SuperBlock} {w w' : World}
    (h : (followSb i).run w = .ok sbi w') : w' = w ∧ sbi = w.sbi ∧ i.iSb = .sb := by
  rw [followSb] at h
  split at h <;> cases h
  exact ⟨rfl, rfl, ‹_›⟩

theorem superOf_same {i : SpfsInode} {sbi : SuperBlock} {w w' : World}
    (h : (superOf i).run w = .ok sbi w') : w' = w := by
  obtain ⟨_, w₁, hbug, hrun⟩ := EStateM.run_bind_eq_ok.mp h
  rw [run_bugOn] at hbug
  split at hbug <;> cases hbug
  exact (followSb_same hrun).1

def putInode (p : ℕ) (i : SpfsInode) : Kernel Unit :=
  modify (·.setInode p i)

@[simp] theorem run_putInode (p : ℕ) (i : SpfsInode) (w : World) :
    (putInode p i).run w = .ok () (w.setInode p i) := rfl

def modifyInode (p : ℕ) (f : SpfsInode → SpfsInode) : Kernel Unit := do
  putInode p (f (← getInode p))

theorem run_modifyInode_of {p : ℕ} {f : SpfsInode → SpfsInode} {w : World} {i : SpfsInode}
    (h : w.inodes p = some i) : (modifyInode p f).run w = .ok () (w.setInode p (f i)) := by
  simp [modifyInode, run_getInode_of h]

/-- `mutex_lock` of the inode's lock. A lock that is held stays held: the model
runs one call at a time, and a call that returned does not come back for it. -/
def mutexLock (p : ℕ) : Kernel Unit := do
  let i ← getInode p
  if i.lock then throw .blocked
  putInode p { i with lock := true }
  emit (.lock p)

theorem run_mutexLock_of {p : ℕ} {w : World} {i : SpfsInode} (h : w.inodes p = some i)
    (hlock : i.lock = false) :
    (mutexLock p).run w =
      .ok () ((w.setInode p { i with lock := true }).addEvent (.lock p)) := by
  simp [mutexLock, run_getInode_of h, hlock]

/-- `mutex_lock_interruptible`: `true` when a signal ended the wait. -/
def mutexLockInterruptible (env : Env) (p : ℕ) : Kernel Bool := do
  let i ← getInode p
  if i.lock then
    if env.signal (← get).time then return true
    throw .blocked
  putInode p { i with lock := true }
  emit (.lock p)
  return false

theorem run_mutexLockInterruptible_of {env : Env} {p : ℕ} {w : World} {i : SpfsInode}
    (h : w.inodes p = some i) (hlock : i.lock = false) :
    (mutexLockInterruptible env p).run w =
      .ok false ((w.setInode p { i with lock := true }).addEvent (.lock p)) := by
  rw [mutexLockInterruptible, EStateM.run_bind_of_ok (run_getInode_of h), hlock]
  rfl

theorem run_mutexLockInterruptible_held {env : Env} {p : ℕ} {w : World} {i : SpfsInode}
    (h : w.inodes p = some i) (hlock : i.lock = true) :
    (mutexLockInterruptible env p).run w =
      if env.signal w.time then .ok true w else .error .blocked w := by
  rw [mutexLockInterruptible, EStateM.run_bind_of_ok (run_getInode_of h), hlock]
  by_cases hs : env.signal w.time
  · rw [if_pos rfl, EStateM.run_bind_of_ok (EStateM.run_get w), if_pos hs, if_pos hs]
    rfl
  · rw [if_pos rfl, EStateM.run_bind_of_ok (EStateM.run_get w), if_neg hs, if_neg hs]
    rfl

theorem run_mutexLock_held {p : ℕ} {w : World} {i : SpfsInode} (h : w.inodes p = some i)
    (hlock : i.lock = true) : (mutexLock p).run w = .error .blocked w := by
  rw [mutexLock, EStateM.run_bind_of_ok (run_getInode_of h), hlock]
  rfl

def mutexUnlock (p : ℕ) : Kernel Unit := do
  modifyInode p fun i => { i with lock := false }
  emit (.unlock p)

theorem run_mutexUnlock_of {p : ℕ} {w : World} {i : SpfsInode} (h : w.inodes p = some i) :
    (mutexUnlock p).run w =
      .ok () ((w.setInode p { i with lock := false }).addEvent (.unlock p)) := by
  simp [mutexUnlock, run_modifyInode_of h]

def markInodeDirty (p : ℕ) : Kernel Unit :=
  modifyInode p fun i => { i with iDirty := true }

theorem run_markInodeDirty_of {p : ℕ} {w : World} {i : SpfsInode} (h : w.inodes p = some i) :
    (markInodeDirty p).run w = .ok () (w.setInode p { i with iDirty := true }) :=
  run_modifyInode_of h

/-! ## What the services leave alone

Rules of the frame calculus for the services above. A relation that does not look
at the log is kept by every service that only logs. -/

class IgnoresLog (R : World → World → Prop) : Prop where
  addEvent : ∀ w e, R w (w.addEvent e)

/-- A relation that looks neither at the log nor at the blocks, the free list and the root of
the tree. -/
class IgnoresStore (R : World → World → Prop) : Prop extends IgnoresLog R where
  setBlock : ∀ w s b, R w (w.setBlock s b)
  setFreeList : ∀ w fl, R w (w.setFreeList fl)
  setTreeStart : ∀ w s, R w (w.setTreeStart s)

/-- The state `w'` differs from `w` in its log only, which has grown. -/
def OnlyLogs (w w' : World) : Prop := ∃ es, w' = { w with log := es ++ w.log }

namespace OnlyLogs

instance : IsPreorder World OnlyLogs where
  refl _ := ⟨[], rfl⟩
  trans := by
    rintro w _ _ ⟨es, rfl⟩ ⟨es', rfl⟩
    exact ⟨es' ++ es, by simp⟩

instance : IgnoresLog OnlyLogs where
  addEvent _ e := ⟨[e], rfl⟩

variable {w w' : World}

theorem bSize (h : OnlyLogs w w') : w'.bSize = w.bSize := by obtain ⟨_, rfl⟩ := h; rfl
theorem disk (h : OnlyLogs w w') : w'.disk = w.disk := by obtain ⟨_, rfl⟩ := h; rfl
theorem sbi (h : OnlyLogs w w') : w'.sbi = w.sbi := by obtain ⟨_, rfl⟩ := h; rfl
theorem inodes (h : OnlyLogs w w') : w'.inodes = w.inodes := by obtain ⟨_, rfl⟩ := h; rfl
theorem slab (h : OnlyLogs w w') : w'.slab = w.slab := by obtain ⟨_, rfl⟩ := h; rfl

/-- It is within every relation that ignores the log. -/
theorem ignored {R : World → World → Prop} [IsPreorder World R] [IgnoresLog R] (h : OnlyLogs w w') : R w w' := by
  obtain ⟨es, rfl⟩ := h
  induction es with
  | nil => exact refl_of R w
  | cons e es ih => exact trans_of R ih (IgnoresLog.addEvent _ e)

/-! An update that does not look at the log keeps the relation. -/

theorem setBlock (h : OnlyLogs w w') (s : ℕ) (b : Block) :
    OnlyLogs (w.setBlock s b) (w'.setBlock s b) := by
  obtain ⟨es, rfl⟩ := h
  exact ⟨es, rfl⟩

theorem setFreeList (h : OnlyLogs w w') (fl : FreeList) :
    OnlyLogs (w.setFreeList fl) (w'.setFreeList fl) := by
  obtain ⟨es, rfl⟩ := h
  exact ⟨es, rfl⟩

theorem setTreeStart (h : OnlyLogs w w') (s : ℕ) :
    OnlyLogs (w.setTreeStart s) (w'.setTreeStart s) := by
  obtain ⟨es, rfl⟩ := h
  exact ⟨es, rfl⟩

theorem setInode (h : OnlyLogs w w') (p : ℕ) (i : SpfsInode) :
    OnlyLogs (w.setInode p i) (w'.setInode p i) := by
  obtain ⟨es, rfl⟩ := h
  exact ⟨es, rfl⟩

end OnlyLogs

/-- The state `w'` differs from `w` in its log only, and the event is among the new ones. -/
def OnlyLogsWith (e : Event) (w w' : World) : Prop :=
  ∃ es, e ∈ es ∧ w' = { w with log := es ++ w.log }

namespace OnlyLogsWith

variable {e : Event} {w w' w'' : World}

theorem onlyLogs (h : OnlyLogsWith e w w') : OnlyLogs w w' := by
  obtain ⟨es, -, rfl⟩ := h
  exact ⟨es, rfl⟩

theorem trans_onlyLogs (h : OnlyLogsWith e w w') (h' : OnlyLogs w' w'') : OnlyLogsWith e w w'' := by
  obtain ⟨es, he, rfl⟩ := h
  obtain ⟨es', rfl⟩ := h'
  exact ⟨es' ++ es, List.mem_append_right es' he, by simp⟩

theorem of_onlyLogs_trans (h : OnlyLogs w w') (h' : OnlyLogsWith e w' w'') : OnlyLogsWith e w w'' := by
  obtain ⟨es, rfl⟩ := h
  obtain ⟨es', he, rfl⟩ := h'
  exact ⟨es' ++ es, List.mem_append_left es he, by simp⟩

theorem setBlock (h : OnlyLogsWith e w w') (s : ℕ) (b : Block) :
    OnlyLogsWith e (w.setBlock s b) (w'.setBlock s b) := by
  obtain ⟨es, he, rfl⟩ := h
  exact ⟨es, he, rfl⟩

theorem setFreeList (h : OnlyLogsWith e w w') (fl : FreeList) :
    OnlyLogsWith e (w.setFreeList fl) (w'.setFreeList fl) := by
  obtain ⟨es, he, rfl⟩ := h
  exact ⟨es, he, rfl⟩

theorem setTreeStart (h : OnlyLogsWith e w w') (s : ℕ) :
    OnlyLogsWith e (w.setTreeStart s) (w'.setTreeStart s) := by
  obtain ⟨es, he, rfl⟩ := h
  exact ⟨es, he, rfl⟩

end OnlyLogsWith

section Frames

open EStateM (Within)

variable {R : World → World → Prop} {α : Type}

theorem within_parseBuf [IsPreorder World R] (s pos : ℕ)
    (p : ℕ → Block → EStateM Fault ℕ α) : Within R (parseBuf s pos p) := by
  intro w
  rw [run_parseBuf]
  split <;> exact refl_of R w

/-- A writer changes the block of its buffer and nothing else. -/
theorem within_makeBuf (s pos : ℕ) (m : ℕ → EStateM Fault Buf α)
    (h : ∀ w, R w (w.setBlock s ((m w.bSize).run ⟨w.disk s, pos⟩).final.data)) :
    Within R (makeBuf s pos m) := by
  intro w
  have hw := h w
  rw [run_makeBuf]
  cases hrun : (m w.bSize).run ⟨w.disk s, pos⟩ <;> simpa [hrun] using hw

theorem within_getInode [IsPreorder World R] (p : ℕ) : Within R (getInode p) := by
  intro w
  rw [run_getInode]
  split <;> exact refl_of R w

theorem within_bugOn [IsPreorder World R] (c : Prop) [Decidable c] :
    Within R (bugOn c : Kernel Unit) := by
  intro w
  rw [run_bugOn]
  split <;> exact refl_of R w

theorem within_followSb [IsPreorder World R] (i : SpfsInode) : Within R (followSb i) := by
  unfold followSb
  split
  · exact Within.get.bind fun w => Within.pure _
  · exact Within.throw _

theorem within_superOf [IsPreorder World R] (i : SpfsInode) : Within R (superOf i) :=
  (within_bugOn _).bind fun _ => within_followSb i

section Log

variable [IgnoresLog R]

theorem within_emit (e : Event) : Within R (emit e) :=
  fun w => IgnoresLog.addEvent w e

theorem within_sbBread (env : Env) (s : ℕ) : Within R (sbBread env s) :=
  fun w => IgnoresLog.addEvent w _

theorem within_brelse (s : ℕ) : Within R (brelse s) :=
  fun w => IgnoresLog.addEvent w _

theorem within_markBufferDirty (s : ℕ) : Within R (markBufferDirty s) :=
  fun w => IgnoresLog.addEvent w _

end Log

end Frames

end Spfs
