-- SUMMARY: After any session on an image of mkfs, fsck and the next mount accept the device exactly if no inode was stored.
import Spfs.File.Write
import Spfs.Vfs.Tree

/-!
# Checking a device after a session

As long as no inode was stored, a session leaves the super block and the free list of the
device alone: calls get at no data but their own. An object that was given an extent has
lost its lock for good, as the tree does not know its inode, and the extent lies behind the
first two blocks. The first inode that is stored takes the super block away, and `fsck` says so.
-/

namespace Spfs

open EStateM (Within run_bind_of_ok run_bind_of_error)

/-! ## Devices on which nothing was stored -/

/-- Nobody can get at data of the inode: it has none, or its lock is never given back. -/
def SpfsInode.Idle (i : SpfsInode) : Prop := i.lock = false → i.NoData

/-- Since `w₀` no inode was stored, and the numbers given go up to `n`. The first two blocks are
what they were, all blocks that are free lie behind them, and no object has data to get at. -/
structure Unstored (w₀ : World) (n : ℕ) (w : World) : Prop where
  start : w.sbi.tree.start = 0
  bSize : w.bSize = w₀.bSize
  disk : ∀ s < 2, w.disk s = w₀.disk s
  free : ∀ node ∈ w.sbi.freeList.root, 2 ≤ node.start
  pos : 1 ≤ w.sbi.id
  id : w.sbi.id ≤ n
  cache : ∀ p i, w.inodes p = some i → i.iIno = p ∧ i.Idle
  slab : ∀ i ∈ w.slab, i.Idle

section Steps

variable {w₀ w w' : World} {n p : ℕ} {i : SpfsInode}

theorem SpfsInode.Idle.of_locked (h : i.lock = true) : i.Idle := fun hfree => by
  rw [h] at hfree
  cases hfree

theorem SpfsInode.Idle.of_same {j : SpfsInode} (h : i.Idle) (hlock : j.lock = i.lock)
    (hcapacity : j.capacity = i.capacity) (hstart : j.start = i.start) : j.Idle := by
  intro hfree
  have hdata := h (hlock ▸ hfree)
  exact ⟨hcapacity.trans hdata.capacity, hstart.trans hdata.start⟩

namespace Unstored

theorem of_onlyLogs (h : Unstored w₀ n w) (hlogs : OnlyLogs w w') : Unstored w₀ n w' where
  start := by rw [hlogs.sbi]; exact h.start
  bSize := by rw [hlogs.bSize]; exact h.bSize
  disk s hs := by rw [hlogs.disk]; exact h.disk s hs
  free := by rw [hlogs.sbi]; exact h.free
  pos := by rw [hlogs.sbi]; exact h.pos
  id := by rw [hlogs.sbi]; exact h.id
  cache := by rw [hlogs.inodes]; exact h.cache
  slab := by rw [hlogs.slab]; exact h.slab

theorem setInode (h : Unstored w₀ n w) (hino : i.iIno = p) (hidle : i.Idle) : Unstored w₀ n (w.setInode p i) := by
  refine { h with cache := fun q j hq => ?_ }
  rw [World.setInode_inodes] at hq
  by_cases hqp : q = p
  · subst hqp
    rw [Function.update_self] at hq
    obtain rfl := Option.some.inj hq
    exact ⟨hino, hidle⟩
  · rw [Function.update_of_ne hqp] at hq
    exact h.cache q j hq

theorem evict (h : Unstored w₀ n w) (p : ℕ) : Unstored w₀ n (w.evict p) := by
  unfold World.evict
  split
  · next i hp =>
    refine { h with cache := fun q j hq => ?_, slab := fun j hj => ?_ }
    · by_cases hqp : q = p
      · subst hqp
        have hnone : (Function.update w.inodes q none) q = some j := hq
        rw [Function.update_self] at hnone
        cases hnone
      · have hsame : (Function.update w.inodes p none) q = some j := hq
        rw [Function.update_of_ne hqp] at hsame
        exact h.cache q j hsame
    · rcases List.mem_cons.mp hj with rfl | hj
      · exact (h.cache p j hp).2
      · exact h.slab j hj
  · exact h

theorem setBlock (h : Unstored w₀ n w) {s : ℕ} (hs : 2 ≤ s) (b : Block) : Unstored w₀ n (w.setBlock s b) := by
  refine { h with disk := fun t ht => ?_ }
  rw [World.setBlock_disk, Function.update_of_ne (by omega)]
  exact h.disk t ht

/-- An object of the slab comes into the cache. -/
theorem withNewObject (h : Unstored w₀ n w) (ino k : ℕ) : Unstored w₀ n (withNewObject w ino k) := by
  have hobj : (w.slab[k]?.getD spfsInodeInitOnce).Idle := by
    cases hk : w.slab[k]? with
    | none => exact fun _ => ⟨rfl, rfl⟩
    | some obj => exact h.slab obj (List.mem_of_getElem? hk)
  have hslab : Unstored w₀ n { w with slab := w.slab.eraseIdx k } :=
    { h with slab := fun i hi => h.slab i (List.mem_of_mem_eraseIdx hi) }
  exact (hslab.of_onlyLogs (IgnoresLog.addEvent _ _)).setInode rfl (hobj.of_same rfl rfl rfl)

end Unstored

instance : IgnoresReads (EStateM.Keeps (Unstored w₀ n)) where
  addEvent w e _ h := h.of_onlyLogs (IgnoresLog.addEvent w e)

/-! ### Space -/

theorem allocLit_le {m r b : ℕ} {l l' : List FreeNode} (h : allocLit m l = some (r, l'))
    (hstart : ∀ node ∈ l, b ≤ node.start) : b ≤ r := by
  revert hstart
  apply allocLit_induction h (motive := fun l _ => (∀ node ∈ l, b ≤ node.start) → b ≤ r)
  · intro node l hn hr hstart
    have := hstart node List.mem_cons_self
    omega
  · intro node l l' _ ih hstart
    exact ih fun m hm => hstart m (List.mem_cons_of_mem _ hm)

/-- Blocks that lie behind a bound are handed out behind it, and the rest stays there. -/
theorem spfsFreeAlloc_le {fl fl' : FreeList} {m r b : ℕ} (hstart : ∀ node ∈ fl.root, b ≤ node.start)
    (h : spfsFreeAlloc fl m = (r, fl')) : (r = 0 ∨ b ≤ r) ∧ ∀ node ∈ fl'.root, b ≤ node.start := by
  rcases spfsFreeAlloc_search h with ⟨rfl, rfl⟩ | ⟨-, hsearch, -⟩
  · exact ⟨.inl rfl, hstart⟩
  · refine ⟨.inr (allocLit_le hsearch hstart), fun node' hnode' => ?_⟩
    obtain ⟨node, hnode, hsame, -⟩ := exists_shrinks_of_mem (allocLit_shrinks hsearch) hnode'
    rw [hsame]
    exact hstart node hnode

theorem Unstored.setFreeList (h : Unstored w₀ n w) {m r : ℕ} {fl : FreeList}
    (halloc : spfsFreeAlloc w.sbi.freeList m = (r, fl)) : Unstored w₀ n (w.setFreeList fl) :=
  { h with free := (spfsFreeAlloc_le h.free halloc).2 }

theorem freeAlloc_unstored (blocks : ℕ) : Within (EStateM.Keeps (Unstored w₀ n)) (freeAlloc blocks) := by
  intro w h
  have hlist : Unstored w₀ n (w.setFreeList (spfsFreeAlloc w.sbi.freeList blocks).2) := h.setFreeList rfl
  rw [run_freeAlloc]
  by_cases hr : (spfsFreeAlloc w.sbi.freeList blocks).1 ≠ 0
  · simp only [if_pos hr]
    exact hlist.of_onlyLogs (IgnoresLog.addEvent _ _)
  · simp only [if_neg hr]
    exact hlist

theorem Unstored.behind (h : Unstored w₀ n w) {blocks r : ℕ} (hrun : (freeAlloc blocks).run w = .ok r w') (hr : r ≠ 0) :
    2 ≤ r := by
  rw [run_freeAlloc] at hrun
  cases hrun
  exact (spfsFreeAlloc_le h.free rfl).1.resolve_left hr

/-! ### Objects -/

theorem modifyInode_unstored (p : ℕ) {f : SpfsInode → SpfsInode}
    (hf : ∀ i, (f i).iIno = i.iIno ∧ (f i).lock = i.lock ∧ (f i).capacity = i.capacity ∧ (f i).start = i.start) :
    Within (EStateM.Keeps (Unstored w₀ n)) (modifyInode p f) := by
  intro w h
  cases hp : w.inodes p with
  | none =>
    rw [modifyInode, run_bind_of_error (by rw [run_getInode, hp])]
    exact h
  | some i =>
    obtain ⟨hino, hidle⟩ := h.cache p i hp
    obtain ⟨hino', hlock, hcapacity, hstart⟩ := hf i
    rw [run_modifyInode_of hp]
    exact h.setInode (hino'.trans hino) (hidle.of_same hlock hcapacity hstart)

variable (env : Env)

theorem iput_unstored (p : ℕ) : Within (EStateM.Keeps (Unstored w₀ n)) (iput p) := by
  intro w h
  cases hp : w.inodes p with
  | none =>
    rw [iput, run_bind_of_error (by rw [run_getInode, hp])]
    exact h
  | some i =>
    obtain ⟨hino, hidle⟩ := h.cache p i hp
    rw [iput, run_bind_of_ok (run_getInode_of hp)]
    split
    · exact h.evict p
    · exact h.setInode hino (hidle.of_same rfl rfl rfl)

theorem unlockNewInode_unstored (p : ℕ) : Within (EStateM.Keeps (Unstored w₀ n)) (unlockNewInode p) :=
  modifyInode_unstored p fun _ => ⟨rfl, rfl, rfl, rfl⟩

theorem igetFailed_unstored (p : ℕ) : Within (EStateM.Keeps (Unstored w₀ n)) (igetFailed env p) := by
  unfold igetFailed
  refine Within.get.bind fun w => Within.bind (modifyInode_unstored p ?_) fun _ => ?_
  · exact fun _ => ⟨rfl, rfl, rfl, rfl⟩
  · exact (unlockNewInode_unstored p).bind fun _ => iput_unstored p

theorem igetLocked_unstored (ino : ℕ) : Within (EStateM.Keeps (Unstored w₀ n)) (igetLocked env ino) := by
  intro w h
  cases hp : w.inodes ino with
  | none =>
    rw [run_igetLocked_none ino hp]
    split
    · exact h.of_onlyLogs (IgnoresLog.addEvent _ _)
    · exact h.withNewObject ino _
  | some i =>
    obtain ⟨hino, hidle⟩ := h.cache ino i hp
    rw [igetLocked, run_bind_of_ok (EStateM.run_get w), hp]
    dsimp only
    split
    · exact h
    split
    · exact h
    · have hput : Unstored w₀ n (w.setInode ino { i with iCount := i.iCount + 1 }) :=
        h.setInode hino (hidle.of_same rfl rfl rfl)
      exact hput.of_onlyLogs (IgnoresLog.addEvent _ _)

theorem incNlink_unstored (p : ℕ) : Within (EStateM.Keeps (Unstored w₀ n)) (incNlink p) := by
  intro w h
  cases hp : w.inodes p with
  | none =>
    rw [incNlink, run_bind_of_error (by rw [run_getInode, hp])]
    exact h
  | some i =>
    obtain ⟨hino, hidle⟩ := h.cache p i hp
    have hput : Within (EStateM.Keeps (Unstored w₀ n)) (putInode p { i with iNlink := (i.iNlink + 1) % 2 ^ 32 }) := by
      intro w h
      exact h.setInode hino (hidle.of_same rfl rfl rfl)
    rw [incNlink, run_bind_of_ok (run_getInode_of hp)]
    refine Within.ite (fun _ => ?_) (fun _ => hput) w h
    exact (within_followSb i).bind fun _ => hput

theorem spfsSetupInodeFp_unstored (p : ℕ) : Within (EStateM.Keeps (Unstored w₀ n)) (spfsSetupInodeFp p) := by
  unfold spfsSetupInodeFp
  refine (within_getInode p).bind fun i => Within.ite (fun _ => Within.pure _) fun _ => ?_
  exact Within.ite (fun _ => incNlink_unstored p) fun _ => Within.throw _

/-- The tree knows no inode, so the object that was taken for one is given up. -/
theorem spfsInodeById_unstored (needle : ℕ) : Within (EStateM.Keeps (Unstored w₀ n)) (spfsInodeById env needle) := by
  intro w h
  refine (igetLocked_unstored env needle).keeps_bind h (fun _ h => h) fun obj w₁ _ h₁ => ?_
  cases obj with
  | none => exact h₁
  | some p =>
    refine (within_getInode p).keeps_bind h₁ (fun _ h => h) fun i w₂ _ h₂ => ?_
    split
    · exact h₂
    · have hlookup : (spfsBtreeLookup env needle i).run w₂ = .ok (1, i) w₂ := spfsBtreeModify_empty h₂.start
      rw [run_bind_of_ok hlookup]
      exact (igetFailed_unstored env p).keeps_bind h₂ (fun _ h => h) fun _ w₃ _ h₃ => h₃

theorem setUpNewInode_unstored (p : ℕ) : Within (EStateM.Keeps (Unstored w₀ n)) (setUpNewInode env p) := by
  refine Within.get.bind fun w => Within.bind (modifyInode_unstored p ?_) fun _ => ?_
  · exact fun _ => ⟨rfl, rfl, rfl, rfl⟩
  · refine (spfsSetupInodeFp_unstored p).bind fun _ => ?_
    exact (unlockNewInode_unstored p).bind fun _ => Within.pure _

theorem inodeInitOwner_lock (env : Env) (dir : SpfsInode) (mode : ℕ) (i : SpfsInode) :
    (inodeInitOwner env dir mode i).iIno = i.iIno ∧ (inodeInitOwner env dir mode i).lock = i.lock := by
  unfold inodeInitOwner
  split <;> exact ⟨rfl, rfl⟩

/-- A new inode takes one number. -/
theorem spfsNewInode_unstored (h : Unstored w₀ n w) (hn : n + 1 < 2 ^ 64) (parent : Option ℕ) (mode : ℕ) :
    Unstored w₀ (n + 1) ((spfsNewInode env parent mode).run w).final := by
  have hnext : (w.sbi.id + 1) % 2 ^ 64 = w.sbi.id + 1 := Nat.mod_eq_of_lt (by have := h.id; omega)
  have hset : (modify (·.setId ((w.sbi.id + 1) % 2 ^ 64)) : Kernel Unit).run w =
      .ok () (w.setId ((w.sbi.id + 1) % 2 ^ 64)) := rfl
  have h₁ : Unstored w₀ (n + 1) (w.setId ((w.sbi.id + 1) % 2 ^ 64)) := by
    rw [hnext]
    exact { h with pos := Nat.le_add_left 1 _, id := Nat.succ_le_succ h.id }
  rw [spfsNewInode, run_bind_of_ok (EStateM.run_get w), run_bind_of_ok hset]
  refine Within.bind (R := EStateM.Keeps (Unstored w₀ (n + 1))) (igetLocked_unstored env _) (fun obj => ?_) _ h₁
  cases obj with
  | none => exact Within.pure _
  | some p =>
    refine (within_getInode p).bind fun i => Within.ite (fun _ => ?_) fun _ => ?_
    · cases parent with
      | none =>
        refine Within.bind (modifyInode_unstored p ?_) fun _ => setUpNewInode_unstored env p
        exact fun _ => ⟨rfl, rfl, rfl, rfl⟩
      | some parent =>
        refine (within_getInode parent).bind fun dir => ?_
        refine Within.bind (modifyInode_unstored p fun i => ?_) fun _ => setUpNewInode_unstored env p
        obtain ⟨hino, hlock⟩ := inodeInitOwner_lock env dir mode i
        exact ⟨hino, hlock, inodeInitOwner_data env dir mode i⟩
    · exact (igetFailed_unstored env p).bind fun _ => Within.pure _

/-! ### Calls -/

theorem Unstored.lock (h : Unstored w₀ n w) (hp : w.inodes p = some i) :
    Unstored w₀ n ((w.setInode p { i with lock := true }).addEvent (.lock p)) := by
  have hput : Unstored w₀ n (w.setInode p { i with lock := true }) := h.setInode (h.cache p i hp).1 (.of_locked rfl)
  exact hput.of_onlyLogs (IgnoresLog.addEvent _ _)

/-- The lock of an inode without data is given back. -/
theorem Unstored.unlock (h : Unstored w₀ n w) (hp : w.inodes p = some i) (hdata : i.NoData) :
    Unstored w₀ n ((w.setInode p { i with lock := false }).addEvent (.unlock p)) := by
  have hput : Unstored w₀ n (w.setInode p { i with lock := false }) :=
    h.setInode (h.cache p i hp).1 fun _ => ⟨hdata.capacity, hdata.start⟩
  exact hput.of_onlyLogs (IgnoresLog.addEvent _ _)

/-- A traversal waits for the lock, or there is no block to go through. -/
theorem spfsForAllChildren_unstored {γ : Type} (f : ForAllCb γ) (p : ℕ) (closure : γ) :
    Within (EStateM.Keeps (Unstored w₀ n)) (spfsForAllChildren env f p closure) := by
  intro w h
  cases hp : w.inodes p with
  | none =>
    rw [spfsForAllChildren, run_bind_of_error (by rw [run_getInode, hp])]
    exact h
  | some i =>
    rw [spfsForAllChildren, run_bind_of_ok (run_getInode_of hp)]
    refine (within_superOf i).keeps_bind h (fun _ h => h) fun sbi w₁ hsuper _ => ?_
    obtain rfl := superOf_same hsuper
    split
    · exact h
    cases hlock : i.lock with
    | true =>
      rw [run_bind_of_error (run_mutexLock_held hp hlock)]
      exact h
    | false =>
      have hdata := (h.cache p i hp).2 hlock
      set w₂ := (w₁.setInode p { i with lock := true }).addEvent (.lock p)
      have hp₂ : w₂.inodes p = some { i with lock := true } := Function.update_self ..
      have hlit : (spfsForAllChildrenLit env f env.fuel i.start closure).run w₂ = .ok (0, closure) w₂ := by
        rw [hdata.start, spfsForAllChildrenLit_zero]
        rfl
      rw [run_bind_of_ok (run_mutexLock_of hp hlock), run_bind_of_ok hlit, run_bind_of_ok (run_mutexUnlock_of hp₂)]
      exact (h.lock hp).unlock hp₂ ⟨hdata.capacity, hdata.start⟩

theorem spfsLookup_unstored (parent : ℕ) (dentry : Dentry) :
    Within (EStateM.Keeps (Unstored w₀ n)) (spfsLookup env parent dentry) := by
  unfold spfsLookup
  refine (within_getInode parent).bind fun dir => (within_bugOn _).bind fun _ => ?_
  refine Within.bind ?_ fun inode => by cases inode <;> exact Within.pure _
  exact (spfsForAllChildren_unstored env _ parent none).bind fun r => Within.pure _

theorem spfsIterate_unstored (file : DirFile) (ctx : DirContext) :
    Within (EStateM.Keeps (Unstored w₀ n)) (spfsIterate env file ctx) := by
  unfold spfsIterate
  refine (within_getInode _).bind fun parent => Within.ite (fun _ => Within.pure _) fun _ => ?_
  refine Within.ite (fun _ => Within.pure _) fun _ => ?_
  exact (spfsForAllChildren_unstored env _ _ _).bind fun r => Within.pure _

theorem spfsRead_unstored (p inLen ppos : ℕ) : Within (EStateM.Keeps (Unstored w₀ n)) (spfsRead env p inLen ppos) := by
  intro w h
  by_cases hlen : inLen = 0
  · rw [spfsRead, if_pos hlen]
    exact h
  rw [spfsRead, if_neg hlen]
  cases hp : w.inodes p with
  | none =>
    rw [run_bind_of_error (by rw [run_getInode, hp])]
    exact h
  | some i =>
    rw [run_bind_of_ok (run_getInode_of hp)]
    split
    · exact h
    refine (within_superOf i).keeps_bind h (fun _ h => h) fun sbi w₁ hsuper _ => ?_
    obtain rfl := superOf_same hsuper
    cases hlock : i.lock with
    | true =>
      rw [run_bind_of_error (run_mutexLock_held hp hlock)]
      exact h
    | false =>
      have hdata := (h.cache p i hp).2 hlock
      set w₂ := (w₁.setInode p { i with lock := true }).addEvent (.lock p)
      have hp₂ : w₂.inodes p = some { i with lock := true } := Function.update_self ..
      have hlit : (spfsReadLit env env.fuel i.start inLen ppos []).run w₂ = .ok (.ok []) w₂ := by
        rw [hdata.start]
        cases env.fuel <;> rfl
      rw [run_bind_of_ok (run_mutexLock_of hp hlock), run_bind_of_ok hlit]
      dsimp only
      rw [run_bind_of_ok (run_mutexUnlock_of hp₂)]
      exact (h.lock hp).unlock hp₂ ⟨hdata.capacity, hdata.start⟩

theorem spfsWriteInode_unstored (p : ℕ) : Within (EStateM.Keeps (Unstored w₀ n)) (spfsWriteInode env p) := by
  intro w h
  refine (within_getInode p).keeps_bind h (fun _ h => h) fun i w₁ _ h₁ => ?_
  refine (within_superOf i).keeps_bind h₁ (fun _ h => h) fun sbi w₂ _ h₂ => ?_
  rw [run_bind_of_ok (spfsBtreeModify_empty h₂.start)]
  exact h₂

/-- An extent lies behind the first two blocks. -/
theorem spfsFileExtentAlloc_unstored (blocks : ℕ) :
    Within (EStateM.Keeps (Unstored w₀ n)) (spfsFileExtentAlloc env blocks) := by
  intro w h
  refine (freeAlloc_unstored blocks).keeps_bind h (fun _ h => h) fun result w₁ hrun h₁ => ?_
  refine Within.ite (R := EStateM.Keeps (Unstored w₀ n)) (fun hne => ?_) (fun _ => Within.pure _) w₁ h₁
  have hmake (m : ℕ → EStateM Fault Buf ℤ) : Within (EStateM.Keeps (Unstored w₀ n)) (makeBuf result 0 m) :=
    within_makeBuf result 0 m fun w h => h.setBlock (Unstored.behind ‹_› hrun hne) _
  have hevent (e : Event) : Within (EStateM.Keeps (Unstored w₀ n)) (emit e) := fun w h =>
    h.of_onlyLogs (IgnoresLog.addEvent w e)
  refine (sbBread_reading env _).bind fun ok => (within_bugOn _).bind fun _ => (hmake _).bind fun r => ?_
  refine Within.ite (fun _ => Within.pure _) fun _ => ?_
  exact (hevent _).bind fun _ => (brelse_reading _).bind fun _ => Within.pure _

/-- The inode is locked while nothing was stored. -/
structure Sealed (w₀ : World) (n p : ℕ) (w : World) : Prop where
  unstored : Unstored w₀ n w
  locked : ∃ i, w.inodes p = some i ∧ i.lock = true

theorem modifyInode_sealed {f : SpfsInode → SpfsInode} (hf : ∀ i, (f i).iIno = i.iIno ∧ (f i).lock = i.lock) :
    Within (EStateM.Keeps (Sealed w₀ n p)) (modifyInode p f) := by
  rintro w ⟨h, i, hp, hlock⟩
  obtain ⟨hino, hlock'⟩ := hf i
  rw [run_modifyInode_of hp]
  refine ⟨h.setInode (hino.trans (h.cache p i hp).1) (.of_locked (hlock'.trans hlock)), f i, ?_, hlock'.trans hlock⟩
  exact Function.update_self ..

theorem spfsFileExtentAlloc_sealed (blocks : ℕ) :
    Within (EStateM.Keeps (Sealed w₀ n p)) (spfsFileExtentAlloc env blocks) := by
  rintro w ⟨h, i, hp, hlock⟩
  have hsame : SameInodes w ((spfsFileExtentAlloc env blocks).run w).final := within_spfsFileExtentAlloc env blocks w
  refine ⟨spfsFileExtentAlloc_unstored env blocks w h, i, ?_, hlock⟩
  rw [hsame]
  exact hp

theorem spfsBtreeModify_sealed {γ : Type} (ino : ℕ) (closure : γ) (cb : BtreeModifyCb γ) :
    Within (EStateM.Keeps (Sealed w₀ n p)) (spfsBtreeModify env ino closure cb) := by
  intro w h
  rw [spfsBtreeModify_empty h.unstored.start]
  exact h

theorem spfsFileExtentDataBytes_same {R : World → World → Prop} [IsPreorder World R] (sbi : SuperBlock) (blocks : ℕ) :
    Within R (spfsFileExtentDataBytes sbi blocks) :=
  (within_bugOn _).bind fun _ => Within.pure _

theorem spfsEnsureCapacity_sealed (inPos inLen : ℕ) :
    Within (EStateM.Keeps (Sealed w₀ n p)) (spfsEnsureCapacity env p inPos inLen) := by
  unfold spfsEnsureCapacity
  refine (within_getInode p).bind fun inode => (within_followSb inode).bind fun sbi => ?_
  refine Within.ite (fun _ => Within.pure _) fun _ => (spfsFileExtentAlloc_sealed env _).bind fun extra => ?_
  refine Within.ite (fun _ => Within.pure _) fun _ => Within.bind (modifyInode_sealed fun i => ⟨rfl, rfl⟩) fun _ => ?_
  refine (spfsFileExtentDataBytes_same sbi _).bind fun bytes => ?_
  refine Within.bind (modifyInode_sealed fun i => ⟨rfl, rfl⟩) fun _ => (within_getInode p).bind fun inode => ?_
  exact (spfsBtreeModify_sealed env _ _ _).bind fun r => Within.pure _

/-- The tree does not know the inode, so a write that needs room does not get it. -/
theorem Sealed.ensured (h : Sealed w₀ n p w) {inPos inLen extra : ℕ}
    (hrun : (spfsEnsureCapacity env p inPos inLen).run w = .ok (0, extra) w') : w' = w ∧ extra = 0 := by
  obtain ⟨i, w₁, hget, h₁⟩ := EStateM.run_bind_eq_ok.mp hrun
  obtain rfl : w = w₁ := (within_getInode (R := Eq) p).of_ok hget
  obtain ⟨sbi, w₂, hfollow, h₂⟩ := EStateM.run_bind_eq_ok.mp h₁
  obtain ⟨rfl, -, -⟩ := followSb_same hfollow
  dsimp only at h₂
  split at h₂
  · cases h₂
    exact ⟨rfl, rfl⟩
  obtain ⟨extra', w₃, halloc, h₃⟩ := EStateM.run_bind_eq_ok.mp h₂
  have hstart₃ := ((spfsFileExtentAlloc_sealed env _).of_ok halloc h).unstored.start
  split at h₃
  · cases h₃
  obtain ⟨_, w₄, hput, h₄⟩ := EStateM.run_bind_eq_ok.mp h₃
  have hsbi₄ := ((within_modifyObject p _).of_ok hput).store.sbi
  obtain ⟨bytes, w₅, hbytes, h₅⟩ := EStateM.run_bind_eq_ok.mp h₄
  obtain rfl : w₄ = w₅ := (spfsFileExtentDataBytes_same (R := Eq) _ _).of_ok hbytes
  obtain ⟨_, w₆, hput', h₆⟩ := EStateM.run_bind_eq_ok.mp h₅
  have hsbi₆ := ((within_modifyObject p _).of_ok hput').store.sbi
  obtain ⟨inode, w₇, hinode, h₇⟩ := EStateM.run_bind_eq_ok.mp h₆
  obtain rfl : w₆ = w₇ := (within_getInode (R := Eq) p).of_ok hinode
  have hstart₆ : w₆.sbi.tree.start = 0 := by rw [hsbi₆, hsbi₄, hstart₃]
  rw [run_bind_of_ok (spfsBtreeModify_empty hstart₆)] at h₇
  cases h₇

theorem spfsWrite_unstored (p : ℕ) (inBuf : List UInt8) (ppos : ℕ) :
    Within (EStateM.Keeps (Unstored w₀ n)) (spfsWrite env p inBuf ppos) := by
  intro w h
  by_cases hlen : inBuf.length = 0
  · rw [spfsWrite, if_pos hlen]
    exact h
  cases hp : w.inodes p with
  | none =>
    rw [spfsWrite, if_neg hlen, run_bind_of_error (by rw [run_getInode, hp])]
    exact h
  | some i =>
    by_cases hreg : sIsReg i.iMode = true
    case neg =>
      rw [spfsWrite, if_neg hlen, run_bind_of_ok (run_getInode_of hp), if_pos (by simp [hreg])]
      exact h
    cases hlock : i.lock with
    | true =>
      rw [run_spfsWrite_held hp hreg hlock]
      exact h
    | false =>
      have hdata := (h.cache p i hp).2 hlock
      set w₁ := (w.setInode p { i with lock := true }).addEvent (.lock p)
      have hp₁ : w₁.inodes p = some { i with lock := true } := Function.update_self ..
      have hsealed : Sealed w₀ n p w₁ := ⟨h.lock hp, _, hp₁, rfl⟩
      rw [spfsWrite, if_neg hlen, run_bind_of_ok (run_getInode_of hp), if_neg (by simp [hreg]),
        run_bind_of_ok (run_mutexLockInterruptible_of hp hlock)]
      dsimp only
      rw [if_neg (by decide)]
      refine (spfsEnsureCapacity_sealed env _ _).keeps_bind hsealed (fun _ h => h.unstored) fun r w₂ hensure h₂ => ?_
      obtain ⟨res, extra⟩ := r
      dsimp only
      split
      · exact h₂.unstored
      next hres =>
      obtain rfl : res = 0 := not_not.mp hres
      obtain ⟨rfl, rfl⟩ := hsealed.ensured env hensure
      set pos := if ppos > i.iSize then i.iSize else ppos
      have hlit : (spfsWriteLit env env.fuel i.start ⟨inBuf, pos⟩ 0 0).run w₁ = .ok (.ok (0, ⟨inBuf, pos⟩, 0)) w₁ := by
        rw [hdata.start]
        cases env.fuel <;> rfl
      have hbuf : inBuf ≠ [] := fun hnil => hlen (List.length_eq_zero_iff.mpr hnil)
      rw [run_bind_of_ok (run_getInode_of hp₁), run_bind_of_ok hlit]
      dsimp only
      rw [run_bind_of_ok (by rw [run_bugOn, if_neg (by simp)]), run_bind_of_error (by rw [run_bugOn, if_pos hbuf])]
      exact hsealed.unstored

/-! ### Creating -/

/-- Nothing was stored yet, or the super block is gone. -/
def UnstoredOrLost (w₀ : World) (n : ℕ) (w : World) : Prop := Unstored w₀ n w ∨ Lost w

theorem Unstored.mono (h : Unstored w₀ n w) {m : ℕ} (hle : n ≤ m) : Unstored w₀ m w :=
  { h with id := h.id.trans hle }

theorem lost_rooted {in_ : SpfsInode} {b : Block} (hroot : rootPage w ≠ 0) (hb : nodeLength b ≤ 1) :
    Lost (rooted env in_ w b) where
  start := hroot
  magic := by
    have hblock : (rooted env in_ w b).disk 0 = b := by
      rw [rooted, World.setBlock_disk, Function.update_self]
    have hmagic : recordMagic b = nodeLength b := rfl
    rw [hblock, hmagic]
    have hlarge : 1 < spookyFsSuperMagic := by decide
    omega

/-- An insertion roots the tree in block 0, or it stores no inode whose number is taken for one. The
record lies behind the first two blocks. -/
theorem spfsBtreeInsert_roots (h : Unstored w₀ n w) (in_ : SpfsInode) :
    (Unstored w₀ n ((spfsBtreeInsert env in_).run w).final ∧
      ∀ w', (spfsBtreeInsert env in_).run w = .ok 0 w' → in_.iIno % 2 ^ 32 = 0) ∨
    ∃ b, rootPage w ≠ 0 ∧ nodeLength b ≤ 1 ∧ Unstored w₀ n (recorded env in_ w) ∧
      OnlyLogs (rooted env in_ w b) ((spfsBtreeInsert env in_).run w).final := by
  have hfirst := spfsBtreeInsert_first env in_ h.start
  have hpage : Unstored w₀ n (w.setFreeList (listAfterPage w)) := h.setFreeList rfl
  have hrecorded (hne : recordPage w ≠ 0) : Unstored w₀ n (recorded env in_ w) :=
    hpage.setBlock ((spfsFreeAlloc_le h.free rfl).1.resolve_left hne) _
  have hroot (hne : recordPage w ≠ 0) : Unstored w₀ n ((recorded env in_ w).setFreeList (listAfterRoot w)) :=
    (hrecorded hne).setFreeList rfl
  generalize (spfsBtreeInsert env in_).run w = r at hfirst ⊢
  cases hfirst with
  | noPage _ hlogs => exact .inl ⟨hpage.of_onlyLogs hlogs, fun _ hok => by cases hok⟩
  | pageUnread _ _ hlogs => exact .inl ⟨hpage.of_onlyLogs hlogs.onlyLogs, fun _ hok => by cases hok⟩
  | zeroId hne _ hzero hlogs => exact .inl ⟨(hrecorded hne).of_onlyLogs hlogs.onlyLogs, fun _ _ => hzero⟩
  | noRoot hne _ _ _ hlogs => exact .inl ⟨(hroot hne).of_onlyLogs hlogs.onlyLogs, fun _ hok => by cases hok⟩
  | rootUnread hne _ _ _ _ hlogs =>
    exact .inl ⟨(hroot hne).of_onlyLogs hlogs.onlyLogs, fun _ hok => by cases hok⟩
  | overrun hne _ _ hpageNe _ _ hb hlogs => exact .inr ⟨_, hpageNe, hb, hrecorded hne, hlogs.onlyLogs⟩
  | inserted hne _ _ hpageNe _ _ hb hlogs => exact .inr ⟨_, hpageNe, hb.le, hrecorded hne, hlogs.onlyLogs⟩

theorem spfsBtreeInsert_unstored (h : Unstored w₀ n w) (in_ : SpfsInode) :
    UnstoredOrLost w₀ n ((spfsBtreeInsert env in_).run w).final ∧
      ∀ w', (spfsBtreeInsert env in_).run w = .ok 0 w' → in_.iIno % 2 ^ 32 ≠ 0 → Lost w' := by
  rcases spfsBtreeInsert_roots env h in_ with ⟨hunstored, hzero⟩ | ⟨b, hpage, hb, -, hlogs⟩
  · exact ⟨.inl hunstored, fun w' hok hid => absurd (hzero w' hok) hid⟩
  · have hlost := (lost_rooted env hpage hb).of_onlyLogs hlogs
    refine ⟨.inr hlost, fun w' hok _ => ?_⟩
    rwa [hok] at hlost

/-- Up to the insertion nothing is stored, and after it nothing is done. -/
theorem spfsGenericCreate_ends {P : World → Prop} (hkept : ∀ w₁, Unstored w₀ (n + 1) w₁ → P w₁)
    (hinsert : ∀ w₁ i, Unstored w₀ (n + 1) w₁ → P ((spfsBtreeInsert env i).run w₁).final) (h : Unstored w₀ n w)
    (hn : n + 1 < 2 ^ 64) (parent : ℕ) (dentry : Dentry) (mode : ℕ) :
    P ((spfsGenericCreate env parent dentry mode).run w).final := by
  have hnothing (w₁ : World) (h₁ : Unstored w₀ n w₁) : P w₁ := hkept w₁ (h₁.mono (Nat.le_succ n))
  refine (within_getInode parent).keeps_bind h hnothing fun dir w₁ _ h₁ => ?_
  refine (within_superOf dir).keeps_bind h₁ hnothing fun _ w₂ _ h₂ => ?_
  split
  · have hnew := spfsNewInode_unstored env h₂ hn (some parent) mode
    cases hrun : (spfsNewInode env (some parent) mode).run w₂ with
    | error f w₃ =>
      rw [hrun] at hnew
      rw [run_bind_of_error hrun]
      exact hkept w₃ hnew
    | ok r w₃ =>
      rw [hrun] at hnew
      rw [run_bind_of_ok hrun]
      cases r with
      | error e => exact hkept w₃ hnew
      | ok inode =>
        refine (modifyInode_unstored inode ?_).keeps_bind hnew hkept fun _ w₄ _ h₄ => ?_
        · exact fun _ => ⟨rfl, rfl, rfl, rfl⟩
        refine (within_getInode inode).keeps_bind h₄ hkept fun i w₅ _ h₅ => ?_
        have hend := hinsert w₅ i h₅
        cases hrun₅ : (spfsBtreeInsert env i).run w₅ with
        | error f w₆ =>
          rw [hrun₅] at hend
          rw [run_bind_of_error hrun₅]
          exact hend
        | ok res w₆ =>
          rw [hrun₅] at hend
          rw [run_bind_of_ok hrun₅]
          split <;> exact hend
  · exact hnothing w₂ h₂

theorem spfsGenericCreate_unstored (h : Unstored w₀ n w) (hn : n + 1 < 2 ^ 64) (parent : ℕ) (dentry : Dentry)
    (mode : ℕ) : UnstoredOrLost w₀ (n + 1) ((spfsGenericCreate env parent dentry mode).run w).final :=
  spfsGenericCreate_ends env (fun _ => .inl) (fun _ i h₁ => (spfsBtreeInsert_unstored env h₁ i).1) h hn parent dentry mode

/-- An inode that was stored took the super block away, if its number is not taken for none. -/
theorem spfsGenericCreate_lost (h : Unstored w₀ n w) (hn : n < 2 ^ 32) {parent mode : ℕ} {dentry dentry' : Dentry}
    (hrun : (spfsGenericCreate env parent dentry mode).run w = .ok (0, dentry') w') : Lost w' := by
  obtain ⟨dir, w₁, hdir, h₁⟩ := EStateM.run_bind_eq_ok.mp hrun
  obtain rfl : w = w₁ := (within_getInode (R := Eq) parent).of_ok hdir
  obtain ⟨_, w₂, hsuper, h₂⟩ := EStateM.run_bind_eq_ok.mp h₁
  obtain rfl := superOf_same hsuper
  split at h₂
  · obtain ⟨r, w₃, hnew, h₃⟩ := EStateM.run_bind_eq_ok.mp h₂
    have hunstored := spfsNewInode_unstored env h (by omega) (some parent) mode
    cases r with
    | error e => cases h₃
    | ok inode =>
      rw [hnew] at hunstored
      obtain ⟨_, w₄, hname, h₄⟩ := EStateM.run_bind_eq_ok.mp h₃
      have hunstored₄ : Unstored w₀ (n + 1) w₄ := by
        refine (modifyInode_unstored inode ?_).of_ok hname hunstored
        exact fun _ => ⟨rfl, rfl, rfl, rfl⟩
      obtain ⟨i, w₅, hget, h₅⟩ := EStateM.run_bind_eq_ok.mp h₄
      rw [run_getInode] at hget
      split at hget <;> cases hget
      next hp =>
      have hid : i.iIno % 2 ^ 32 ≠ 0 := by
        have hpos := h.pos
        have hle := h.id
        rw [(hunstored₄.cache inode i hp).1, spfsNewInode_number hnew, eval_id]
        dsimp only
        omega
      obtain ⟨res, w₆, hinsert, h₆⟩ := EStateM.run_bind_eq_ok.mp h₅
      split at h₆
      · next hres =>
        cases h₆
        exact absurd rfl hres
      next hres =>
      obtain rfl : res = 0 := not_not.mp hres
      cases h₆
      exact (spfsBtreeInsert_unstored env hunstored₄ i).2 _ hinsert hid
  · cases h₂

theorem createOp_unstored (h : Unstored w₀ n w) (hn : n < 2 ^ 32) (op : CreateOp) (parent : ℕ) (dentry : Dentry)
    (mode : ℕ) : UnstoredOrLost w₀ (n + 1) ((op.run env parent dentry mode).run w).final := by
  have hnothing (w₁ : World) (h₁ : Unstored w₀ n w₁) : UnstoredOrLost w₀ (n + 1) w₁ := .inl (h₁.mono (Nat.le_succ n))
  refine (within_bugOn _).keeps_bind h hnothing fun _ w₁ _ h₁ => ?_
  refine (within_getInode parent).keeps_bind h₁ hnothing fun dir w₂ _ h₂ => ?_
  refine (within_bugOn _).keeps_bind h₂ hnothing fun _ w₃ _ h₃ => ?_
  have hgeneric := spfsGenericCreate_unstored env h₃ (by omega) parent dentry mode
  cases hrun : (spfsGenericCreate env parent dentry mode).run w₃ with
  | error f w₄ =>
    rw [hrun] at hgeneric
    rw [run_bind_of_error hrun]
    exact hgeneric
  | ok r w₄ =>
    obtain ⟨res, dentry'⟩ := r
    rw [hrun] at hgeneric
    rw [run_bind_of_ok hrun]
    dsimp only
    split
    · exact hgeneric
    next hres =>
    obtain rfl : res = 0 := not_not.mp hres
    -- the rest of the call leaves the super block lost
    have hlost := spfsGenericCreate_lost env h₃ hn hrun
    split
    · exact .inr hlost
    next inode _ =>
    have hlink : Within (EStateM.Keeps Lost) (op.link parent) := by
      cases op with
      | create => exact Within.pure _
      | mkdir => exact incNlink_reading parent
    have hadd (child : ℕ) : Within (EStateM.Keeps Lost) (spfsAddChild env parent child) :=
      within_spfsAddChild (fun _ _ h => ⟨h.start, h.magic⟩) env child
    refine .inr ((hlink.bind fun _ => (within_getInode inode).bind fun child => ?_) w₄ hlost)
    exact (hadd _).bind fun _ => Within.pure _

/-- The call only packs the result of the function. -/
theorem VfsCall.final_create (op : CreateOp) (parent : ℕ) (dentry : Dentry) (mode : ℕ) :
    (((VfsCall.create op parent dentry mode).run env).run w).final = ((op.run env parent dentry mode).run w).final := by
  rw [VfsCall.run]
  cases hrun : (op.run env parent dentry mode).run w with
  | error f w₁ =>
    rw [run_bind_of_error hrun]
    rfl
  | ok r w₁ =>
    rw [run_bind_of_ok hrun]
    rfl

/-- Only calls that create store anything. -/
theorem VfsCall.within_unstored {call : VfsCall} (hcall : ∀ op parent dentry mode, call ≠ .create op parent dentry mode) :
    Within (EStateM.Keeps (Unstored w₀ n)) (call.run env) := by
  cases call with
  | create op parent dentry mode => exact absurd rfl (hcall op parent dentry mode)
  | lookup parent dentry => exact (spfsLookup_unstored env parent dentry).bind fun _ => Within.pure _
  | iterate file ctx => exact (spfsIterate_unstored env file ctx).bind fun _ => Within.pure _
  | read p inLen ppos => exact (spfsRead_unstored env p inLen ppos).bind fun _ => Within.pure _
  | write p inBuf ppos => exact (spfsWrite_unstored env p inBuf ppos).bind fun _ => Within.pure _
  | writeInode p => exact (spfsWriteInode_unstored env p).bind fun _ => Within.pure _
  | iput p => exact (iput_unstored p).bind fun _ => Within.pure _
  | freeInode p => exact Within.bind (fun w h => h.evict p) fun _ => Within.pure _

/-- A call stores an inode, with which the super block is lost, or it leaves all as it was. -/
theorem VfsCall.unstored (h : Unstored w₀ n w) (hn : n < 2 ^ 32) (call : VfsCall) :
    UnstoredOrLost w₀ (n + 1) ((call.run env).run w).final := by
  cases call with
  | create op parent dentry mode =>
    rw [VfsCall.final_create]
    exact createOp_unstored env h hn op parent dentry mode
  | lookup | iterate | read | write | writeInode | iput | freeInode =>
    exact .inl ((VfsCall.within_unstored env (by simp) w h).mono (Nat.le_succ n))

/-- A session that stores no inode creates none, and one that stores one loses the super block. -/
theorem runCalls_unstored (calls : List (Env × VfsCall)) (h : Unstored w₀ n w) (hn : n + calls.length ≤ 2 ^ 32) :
    (Unstored w₀ (n + calls.length) (runCalls w calls) ∧ createdIn w calls = []) ∨ Lost (runCalls w calls) := by
  induction calls generalizing w n with
  | nil => exact .inl ⟨h, rfl⟩
  | cons call calls ih =>
    have hlength : (call :: calls).length = calls.length + 1 := List.length_cons
    rw [hlength] at hn
    rw [runCalls_cons, createdIn]
    rcases call.2.unstored call.1 h (by omega) with hnext | hlost
    case inr => exact .inr (runCalls_lost hlost calls)
    cases hid : call.2.creates call.1 w with
    | some id =>
      obtain ⟨-, rfl, hover⟩ := VfsCall.creates_next hid
      have hpos := h.pos
      have hle := h.id
      have hlost := (hover (by omega)).lost
      exact absurd hnext.start hlost.start
    | none =>
      rcases ih hnext (by omega) with ⟨hlast, hnone⟩ | hlost
      · have hcount : n + (call :: calls).length = n + 1 + calls.length := by omega
        rw [hcount]
        exact .inl ⟨hlast, hnone⟩
      · exact .inr hlost

end Steps

/-! ## Sessions on an image -/

/-- The file as the next program finds it, with other data in it. -/
def OpenFile.holding (fd : OpenFile) (data : Block) : OpenFile := { fd.reopen with data := data }

/-- The programs take the device for the one that `mkfs` made of `fd`, with nothing on it. -/
structure TakenForFresh (fd fd' : OpenFile) (data : Block) : Prop where
  exits : ∀ fuel super, ∃ fd'', (fsckMain (fuel + 1) super).run (fd'.holding data) = .ok 0 fd''
  fsck : FsckAccepts (fd'.holding data) (superFor fd.blksize fd.dataBlocks) [⟨2, fd.dataBlocks % 2 ^ 32⟩]
  kernel : KernelAccepts data (superFor fd.blksize fd.dataBlocks) [⟨2, fd.dataBlocks % 2 ^ 32⟩]
  mount : ∀ env w w', w.device = data → (spfsFillSuperBlock env).run w = .ok 0 w' →
    w'.sbi.tree.start = 0 ∧ w'.sbi.freeList = oneEntry (fd.dataBlocks % 2 ^ 32)

/-- No program takes the device for a file system. -/
structure NoFileSystem (fd' : OpenFile) (data : Block) : Prop where
  exits : ∀ fuel super, ∃ fd'', (fsckMain fuel super).run (fd'.holding data) = .ok 1 fd''
  mount : ∀ env w w', w.device = data → (spfsFillSuperBlock env).run w ≠ .ok 0 w'

section Sessions

variable {env : Env} {fd fd' : OpenFile} {w w₀ w' : World} {n : ℕ}

theorem Unstored.rebase (h : Unstored w₀ n w) : Unstored w n w :=
  { h with bSize := rfl, disk := fun _ _ => rfl }

/-- The bytes of the first two blocks are what they were. -/
theorem Unstored.device (h : Unstored w₀ n w) {a : ℕ} (ha : a < 2 * w₀.bSize) : w.device a = w₀.device a := by
  have hblock : 0 + a / w₀.bSize < 2 := by
    rw [Nat.zero_add, Nat.div_lt_iff_lt_mul (by omega)]
    exact ha
  rw [World.device, World.device, Block.joined, Block.joined, h.bSize, h.disk _ hblock]

/-- The tree of a device without one knows no root, so the mount makes one and takes a number. -/
theorem mountRoot_unstored (env : Env) (h : Unstored w₀ n w) (hn : n + 1 < 2 ^ 64) :
    Unstored w₀ (n + 1) ((mountRoot env).run w).final := by
  have hnothing (w₁ : World) (h₁ : Unstored w₀ n w₁) : Unstored w₀ (n + 1) w₁ := h₁.mono (Nat.le_succ n)
  rw [mountRoot, run_bind_of_ok (EStateM.run_get w)]
  refine (spfsInodeById_unstored env w.sbi.rootId).keeps_bind h hnothing fun r w₁ _ h₁ => ?_
  rcases r with e | _ | root
  · exact hnothing _ h₁
  · have hnew := spfsNewInode_unstored env h₁ hn none rootMode
    cases hrun : (spfsNewInode env none rootMode).run w₁ with
    | error f w₂ =>
      rw [hrun] at hnew
      rw [run_bind_of_error hrun]
      exact hnew
    | ok r w₂ =>
      rw [hrun] at hnew
      rw [run_bind_of_ok hrun]
      cases r with
      | error e => exact hnew
      | ok root =>
        refine (within_getInode root).keeps_bind hnew (fun _ h => h) fun i w₃ _ h₃ => ?_
        exact { h₃ with }
  · exact hnothing _ h₁

/-- A device without a tree, whose free blocks lie behind the first two, is mounted with nothing stored. -/
theorem spfsFillSuperBlock_unstored {es : List FreeNode} (hlist : DeviceLists w.device es)
    (hfree : ∀ node ∈ es, 2 ≤ node.start) (hempty : (storedSuper w.device).btreeOffset = 0)
    (hid : 1 ≤ (storedSuper w.device).id) (hn : (storedSuper w.device).id + 1 < 2 ^ 64)
    (hnone : w.inodes = fun _ => none) (hslab : ∀ i ∈ w.slab, i.Idle)
    (hmount : (spfsFillSuperBlock env).run w = .ok 0 w') :
    Unstored w' ((storedSuper w.device).id + 1) w' := by
  have hlisted := mounted_freeList hlist hmount
  obtain ⟨w₁, w₂, hread, hrest⟩ := spfsFillSuperBlock_zero hmount
  have htaken := readDevice_zero hread
  rcases hrest with hroot | ⟨root, hroot, hmodify⟩
  · exact absurd (mountRoot_error hroot) (by decide)
  have hgeo : SameGeometry w₁ w' :=
    trans_of SameGeometry (within_mountRoot.of_ok hroot) ((modifyInode_reading root _).of_ok hmodify)
  have hunstored : Unstored w₁ (storedSuper w.device).id w₁ := by
    refine ⟨?_, rfl, fun _ _ => rfl, fun node hnode => ?_, ?_, ?_, fun p i hp => ?_, fun i hi => ?_⟩
    · rw [htaken.tree]
      exact hempty
    · rw [← hgeo.freeList, hlisted, root_foldl_push, List.append_nil] at hnode
      exact hfree node (List.mem_reverse.mp hnode)
    · rw [htaken.id]
      exact hid
    · exact htaken.id.le
    · rw [htaken.inodes] at hp
      have hcached : w.inodes p = some i := hp
      rw [hnone] at hcached
      cases hcached
    · rw [htaken.slab] at hi
      exact hslab i hi
  have hrooted := mountRoot_unstored env hunstored hn
  rw [hroot] at hrooted
  refine Unstored.rebase ((modifyInode_unstored root ?_).of_ok hmodify hrooted)
  exact fun _ => ⟨rfl, rfl, rfl, rfl⟩

section Image

variable {data : Block} (hpos : fd.pos = 0) (hblk : 512 ≤ fd.blksize) (hblk' : fd.blksize < 2 ^ 32)
  (hmkfs : mkfsMain.run fd = .ok 0 fd')

include hpos hblk hblk' hmkfs

/-- A device that begins with the two blocks that `mkfs` wrote is as good as its image. -/
theorem takenForFresh_of_front (hdvd : 512 ∣ fd.blksize) (hfront : ∀ a < 2 * fd.blksize, data a = fd'.data a) :
    TakenForFresh fd fd' data := by
  obtain ⟨hthree, hsize, -⟩ := run_mkfsMain hpos hblk hblk' hmkfs
  have himage : data = freshImage fd.blksize fd.dataBlocks data := by
    rw [mkfsMain_freshImage hpos hblk hblk' hmkfs] at hfront
    exact eq_freshImage hblk hfront
  have hlong : 2 * fd.blksize ≤ (fd'.holding data).size := by
    show 2 * fd.blksize ≤ fd'.size
    omega
  have hfsck : FsckAccepts (fd'.holding data) (superFor fd.blksize fd.dataBlocks) [⟨2, fd.dataBlocks % 2 ^ 32⟩] :=
    fsckAccepts_freshImage hblk hblk' hdvd himage hlong rfl
  refine ⟨fun fuel super => ?_, hfsck, ?_, fun env w w' hdev hmount => ?_⟩
  · obtain ⟨fd'', hrun, -⟩ := hfsck.main fuel super
    exact ⟨fd'', hrun⟩
  · rw [himage]
    exact kernelAccepts_freshImage hblk hblk'
  · rw [himage] at hdev
    obtain ⟨-, -, -, -, htree, -⟩ := spfsFillSuperBlock_geometry hmount
    rw [hdev, storedSuper_freshImage hblk hblk'] at htree
    refine ⟨congrArg (·.start) htree, ?_⟩
    rw [mounted_freeList (hdev ▸ deviceLists_freshImage hblk hblk') hmount]
    simp [FreeList.push, oneEntry]

/-- A device that lost its super block is none for any program. -/
theorem noFileSystem_of_magic (hmagic : (storedSuper data).magic ≠ spookyFsSuperMagic) : NoFileSystem fd' data := by
  obtain ⟨hthree, hsize, -⟩ := run_mkfsMain hpos hblk hblk' hmkfs
  refine ⟨fun fuel super => ?_, fun env w w' hdev hmount => ?_⟩
  · have hlong : 28 ≤ (fd'.holding data).size := by
      show 28 ≤ fd'.size
      omega
    exact ⟨_, run_fsckMain_noSuper hlong hmagic fuel⟩
  · have hmagic' := spfsFillSuperBlock_magic hmount
    rw [hdev] at hmagic'
    exact hmagic hmagic'

variable (hdev : w.device = fd'.data) (hnone : w.inodes = fun _ => none) (hslab : ∀ i ∈ w.slab, i.Idle)
  (hmount : (spfsFillSuperBlock env).run w = .ok 0 w')

include hdev hnone hslab hmount

/-- An image of `mkfs` is mounted with nothing stored on it. -/
theorem mounted_unstored : Unstored w' 2 w' ∧ w'.device = fd'.data ∧ w'.bSize = fd.blksize := by
  have hstored := storedSuper_mkfs hpos hblk hblk' hmkfs
  have hlist := deviceLists_mkfs hpos hblk hblk' hmkfs
  rw [← hdev] at hstored hlist
  obtain ⟨-, -, hdevice, hbSize, -⟩ := spfsFillSuperBlock_geometry hmount
  have hid : (storedSuper w.device).id = 1 := congrArg (·.id) hstored
  have hunstored := spfsFillSuperBlock_unstored hlist (by simp) (congrArg (·.btreeOffset) hstored) hid.ge
    (by rw [hid]; decide) hnone hslab hmount
  rw [hid] at hunstored
  exact ⟨hunstored, hdevice.trans hdev, hbSize.trans (congrArg (·.blockSize) hstored)⟩

end Image

end Sessions

end Spfs
