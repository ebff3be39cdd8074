-- SUMMARY: What is left of a session when the device is mounted again, and the sessions after which it can be.
import Spfs.Fsck.Agree
import Spfs.File.Frame
import Spfs.Mount

/-!
# Sessions

A session mounts a device, calls what succeeds, and leaves it. The first inode that a
session stores puts the root of the tree over the super block, so no session comes after it.
Sessions that store nothing leave the device as they found it.
-/

namespace Spfs

open EStateM (Within run_bind_of_ok)

/-! ## One session -/

/-- The calls of a session, with the ids of the inodes that they stored. Those that create and
write succeed, and inodes are written back at any time. -/
inductive Calls (w₀ : World) : List ℕ → World → Prop where
  | start : Calls w₀ [] w₀
  | created {env : Env} {op : CreateOp} {parent mode id : ℕ} {dentry dentry' : Dentry} {ids : List ℕ}
      {w w' : World} : Calls w₀ ids w → (op.run env parent dentry mode).run w = .ok (0, dentry') w' →
      dentry'.dInode = some id → Calls w₀ (ids ++ [id]) w'
  | written {env : Env} {p ppos pos : ℕ} {inBuf : List UInt8} {n : ℤ} {ids : List ℕ} {w w' : World} :
      Calls w₀ ids w → (spfsWrite env p inBuf ppos).run w = .ok (n, pos) w' → 0 ≤ n → Calls w₀ ids w'
  | flushed {env : Env} {p : ℕ} {res : ℤ} {ids : List ℕ} {w w' : World} :
      Calls w₀ ids w → (spfsWriteInode env p).run w = .ok res w' → Calls w₀ ids w'

/-- A session on a device: what mounting returned, the state after it, and the state after the
calls, with the ids of the inodes that were stored. -/
structure Session where
  data : Block
  slab : List SpfsInode
  res : ℤ
  mounted : World
  ids : List ℕ
  last : World

namespace Session

variable (s : Session)

structure Runs : Prop where
  mount : ∃ env, (spfsFillSuperBlock env).run { deviceWorld s.data with slab := s.slab } = .ok s.res s.mounted
  calls : s.res = 0 → Calls s.mounted s.ids s.last
  failed : s.res ≠ 0 → s.ids = [] ∧ s.last = s.mounted

/-- The device when it is mounted no more. All buffers are written back. -/
def left : Block := (spfsPutSuper.run s.last).final.device

/-- The sectors that the calls got from the free list. -/
def sectors : Set ℕ :=
  {x | ∃ es sector blocks, s.last.log = es ++ s.mounted.log ∧ .alloc sector blocks ∈ es ∧
    sector ≤ x ∧ x < sector + blocks}

/-- The numbers that `spfs_new_inode` gave: to the inodes that were stored, and to the root if
mounting moved the counter. -/
def given : Set ℕ :=
  {id | id ∈ s.ids ∨ s.mounted.sbi.id ≠ (storedSuper s.data).id ∧ id = (storedSuper s.data).id}

/-- The session has a tree, and a lookup in it finds the id. -/
def Finds (id : ℕ) : Prop :=
  s.res = 0 ∧ ∃ env dest dest' w, (spfsBtreeLookup env id dest).run s.mounted = .ok (0, dest') w

end Session

/-- The later session takes nothing from the earlier one, and has what was stored in it. -/
structure SafeAfter (earlier later : Session) : Prop where
  sectors : Disjoint earlier.sectors later.sectors
  ids : ∀ id ∈ earlier.ids, id ∉ later.given
  found : ∀ id ∈ earlier.ids, later.Finds id

/-- Sessions on one device, each on what the one before it left. -/
inductive Sessions : Block → List Session → Prop where
  | nil {data : Block} : Sessions data []
  | cons {data : Block} {s : Session} {ss : List Session} : s.data = data → s.Runs →
      Sessions s.left ss → Sessions data (s :: ss)

def RemountSafe (ss : List Session) : Prop := ss.Pairwise SafeAfter

/-! ## The root over the super block -/

/-- The tree has a root, and block 0 holds the node with one entry that was built for it. -/
structure Overwritten (w : World) : Prop where
  start : w.sbi.tree.start ≠ 0
  root : nodeLength (w.disk 0) = 1

/-- What was overwritten stays so. -/
def StaysOverwritten (w w' : World) : Prop := Overwritten w → Overwritten w'

instance : IsPreorder World StaysOverwritten where
  refl _ := id
  trans _ _ _ h h' := h' ∘ h

instance : IgnoresWrites StaysOverwritten where
  addEvent _ _ h := ⟨h.start, h.root⟩
  setFreeList _ _ h := ⟨h.start, h.root⟩
  setBlock w s b hs h := by
    refine ⟨h.start, ?_⟩
    rcases hs with hs | hmagic
    · rw [World.setBlock_disk, Function.update_of_ne hs.symm]
      exact h.root
    · by_cases hs : s = 0
      · subst hs
        have hone : recordMagic (w.disk 0) = 1 := h.root
        rw [hone] at hmagic
        exact absurd hmagic (by decide)
      · rw [World.setBlock_disk, Function.update_of_ne (Ne.symm hs)]
        exact h.root

section Calls

variable {env : Env} {op : CreateOp} {p mode : ℕ} {dentry dentry' : Dentry} {w w' : World}

/-- The directory of a call that returns is in the cache. -/
theorem createOp_parent {r : ℤ × Dentry} (hrun : (op.run env p dentry mode).run w = .ok r w') :
    ∃ dir, w.inodes p = some dir ∧ dir.iSb = .sb := by
  obtain ⟨_, w₁, hkind, h₁⟩ := EStateM.run_bind_eq_ok.mp hrun
  obtain rfl : w = w₁ := (within_bugOn (R := Eq) _).of_ok hkind
  obtain ⟨dir, w₂, hdir, h₂⟩ := EStateM.run_bind_eq_ok.mp h₁
  rw [run_getInode] at hdir
  split at hdir <;> cases hdir
  next hp =>
  refine ⟨dir, hp, ?_⟩
  obtain ⟨_, w₃, hsuper, h₃⟩ := EStateM.run_bind_eq_ok.mp h₂
  obtain rfl : w = w₃ := (within_bugOn (R := Eq) _).of_ok hsuper
  obtain ⟨_, w₄, hgeneric, -⟩ := EStateM.run_bind_eq_ok.mp h₃
  obtain ⟨_, w₅, hget, h₅⟩ := EStateM.run_bind_eq_ok.mp hgeneric
  rw [run_getInode_of hp] at hget
  cases hget
  obtain ⟨_, w₆, hfollow, -⟩ := EStateM.run_bind_eq_ok.mp h₅
  obtain ⟨_, w₇, -, hfollow⟩ := EStateM.run_bind_eq_ok.mp hfollow
  exact (followSb_same hfollow).2.2

/-- A call that succeeds stores the first inode of a tree, and the root of the tree takes the
place of the super block. -/
theorem createOp_overwrites (hrun : (op.run env p dentry mode).run w = .ok (0, dentry') w') :
    w.sbi.tree.start = 0 ∧ (w.sbi.id % 2 ^ 32 ≠ 0 → Overwritten w') := by
  obtain ⟨dir, hp, hsb⟩ := createOp_parent hrun
  have hend := op.run_ends env dentry mode hp hsb
  rw [hrun] at hend
  cases hend with
  | refused _ _ _ _ hres => exact absurd rfl hres
  | @added k _ w₁ _ h hgets htakes htaken hlock hcall =>
    refine ⟨htakes.start, fun hid => ?_⟩
    have hne : (createdInode env dir mode w k dentry.name h).iIno % 2 ^ 32 ≠ 0 := by
      rw [createdInode_iIno h]
      exact hid
    have hstart : w₁.sbi.tree.start ≠ 0 := by
      rw [htaken.sbi, superAfterInsert, if_neg hne]
      exact (htakes.root hne).1
    have hstep {s : ℕ} {b : Block} {j : SpfsInode} {fl : FreeList} (hs : s ≠ 0)
        (h : DirStep p j (Function.update w₁.disk s b) fl (w₁.setInode p (op.linked dir)) w') : Overwritten w' := by
      refine ⟨?_, ?_⟩
      · rw [h.sbi]
        exact hstart
      · rw [h.disk, Function.update_of_ne hs.symm]
        exact htaken.root hne
    generalize placeIn env (w₁.setInode p (op.linked dir)) (op.linked dir) = place at hcall
    cases hcall with
    | slot hs _ _ _ h => exact hstep hs h
    | fresh hs _ h => exact hstep hs h

theorem staysOverwritten_setInode (w : World) (i : SpfsInode) : StaysOverwritten w (w.setInode p i) :=
  fun h => ⟨h.start, h.root⟩

theorem within_spfsWriteInode : Within StaysOverwritten (spfsWriteInode env p) := by
  unfold spfsWriteInode
  refine (within_getInode p).bind fun i => (within_superOf i).bind fun _ => ?_
  exact (within_spfsBtreeModify env i.iIno () spfsModInodeCb).bind fun r => Within.pure _

/-- On an empty tree nothing is written back. -/
theorem spfsWriteInode_emptyTree {res : ℤ} (hstart : w.sbi.tree.start = 0)
    (hrun : (spfsWriteInode env p).run w = .ok res w') : w' = w := by
  obtain ⟨i, w₁, hget, h₁⟩ := EStateM.run_bind_eq_ok.mp hrun
  obtain rfl : w = w₁ := (within_getInode (R := Eq) p).of_ok hget
  obtain ⟨_, w₂, hsuper, h₂⟩ := EStateM.run_bind_eq_ok.mp h₁
  obtain rfl : w = w₂ := (superOf_same hsuper).symm
  rw [run_bind_of_ok (spfsBtreeModify_empty hstart)] at h₂
  cases h₂
  rfl

/-- Without a regular file nothing can be written. -/
theorem spfsWrite_noFile {inBuf : List UInt8} {ppos pos : ℕ} {n : ℤ}
    (hdirs : ∀ p i, w.inodes p = some i → sIsReg i.iMode = false) (hn : 0 ≤ n)
    (hrun : (spfsWrite env p inBuf ppos).run w = .ok (n, pos) w') : w' = w := by
  unfold spfsWrite at hrun
  split at hrun
  · cases hrun
    rfl
  obtain ⟨i, w₁, hget, h₁⟩ := EStateM.run_bind_eq_ok.mp hrun
  rw [run_getInode] at hget
  split at hget <;> cases hget
  next hp =>
  rw [hdirs p _ hp] at h₁
  cases h₁
  exact absurd hn (by decide)

/-- Calls that store no inode change nothing, and the first inode that is stored takes the
place of the super block. -/
theorem Calls.states {data : Block} {w₀ : World} {ids : List ℕ} (hw₀ : Unwritten data w₀)
    (hid : ((storedSuper data).id + 1) % 2 ^ 32 ≠ 0) (h : Calls w₀ ids w) :
    ids = [] ∧ w = w₀ ∨ ids ≠ [] ∧ Overwritten w := by
  induction h with
  | start => exact .inl ⟨rfl, rfl⟩
  | created _ hrun _ ih =>
    have hne {ids : List ℕ} {id : ℕ} : ids ++ [id] ≠ [] := by simp
    obtain ⟨hstart, hover⟩ := createOp_overwrites hrun
    rcases ih with ⟨-, rfl⟩ | ⟨-, hrooted⟩
    · exact .inr ⟨hne, hover (by rw [hw₀.id]; exact hid)⟩
    · exact absurd hstart hrooted.start
  | written _ hrun hn ih =>
    rcases ih with ⟨hids, rfl⟩ | ⟨hids, hrooted⟩
    · exact .inl ⟨hids, spfsWrite_noFile hw₀.dirs hn hrun⟩
    · have hstays := (within_spfsWrite_ignored staysOverwritten_setInode _ _ _).of_ok hrun
      exact .inr ⟨hids, hstays hrooted⟩
  | flushed _ hrun ih =>
    rcases ih with ⟨hids, rfl⟩ | ⟨hids, hrooted⟩
    · exact .inl ⟨hids, spfsWriteInode_emptyTree hw₀.start hrun⟩
    · exact .inr ⟨hids, within_spfsWriteInode.of_ok hrun hrooted⟩

end Calls

/-! ## Sessions that come after one another -/

/-- A device whose tree is empty, with a number for the next inode that is not taken for none. -/
structure EmptyTree (data : Block) : Prop where
  offset : (storedSuper data).btreeOffset = 0
  id : ((storedSuper data).id + 1) % 2 ^ 32 ≠ 0

theorem deviceWorld_device (data : Block) (slab : List SpfsInode) :
    ({ deviceWorld data with slab := slab } : World).device = data := by
  funext a
  show data ((0 + a / 512) * 512 + a % 512) = data a
  rw [Nat.zero_add, Nat.div_add_mod']

namespace Session

variable {s t : Session}

theorem left_eq (s : Session) : s.left = s.last.device := rfl

theorem Runs.device (h : s.Runs) : s.mounted.device = s.data := by
  obtain ⟨env, hmount⟩ := h.mount
  exact (within_spfsFillSuperBlock.of_ok hmount : SameDevice _ _).trans (deviceWorld_device _ _)

theorem Runs.unwritten (h : s.Runs) (hempty : EmptyTree s.data) (hres : s.res = 0) :
    Unwritten s.data s.mounted := by
  obtain ⟨env, hmount⟩ := h.mount
  rw [hres] at hmount
  have hdevice := deviceWorld_device s.data s.slab
  have hunwritten := spfsFillSuperBlock_unwritten (by rw [hdevice]; exact hempty.offset) rfl hmount
  rw [hdevice] at hunwritten
  exact hunwritten

/-- A session that stores nothing leaves the device as it was, and gets no sector. -/
theorem Runs.unchanged (h : s.Runs) (hempty : EmptyTree s.data) (hids : s.ids = []) : s.last = s.mounted := by
  by_cases hres : s.res = 0
  · rcases (h.calls hres).states (h.unwritten hempty hres) hempty.id with ⟨-, hlast⟩ | ⟨hne, -⟩
    · exact hlast
    · exact absurd hids hne
  · exact (h.failed hres).2

theorem sectors_of_unchanged (h : s.last = s.mounted) : s.sectors = ∅ := by
  apply Set.eq_empty_of_forall_notMem
  rintro x ⟨es, sector, blocks, hlog, hmem, -⟩
  rw [h] at hlog
  obtain rfl : es = [] := List.self_eq_append_left.mp hlog
  cases hmem

/-- After a session that stores an inode the device has no super block. -/
theorem Runs.magic (h : s.Runs) (hempty : EmptyTree s.data) (hids : s.ids ≠ []) :
    (storedSuper s.left).magic ≠ spookyFsSuperMagic := by
  have hres : s.res = 0 := by
    by_contra hres
    exact hids (h.failed hres).1
  rcases (h.calls hres).states (h.unwritten hempty hres) hempty.id with ⟨hnil, -⟩ | ⟨-, hover⟩
  · exact absurd hnil hids
  · have hone : (storedSuper s.left).magic = 1 := by
      rw [left_eq, storedSuper, ← parsedSuper_device]
      exact hover.root
    rw [hone]
    decide

/-- Without a super block there is no session. -/
theorem Runs.not_finds (h : s.Runs) (hmagic : (storedSuper s.data).magic ≠ spookyFsSuperMagic) (id : ℕ) :
    ¬ s.Finds id := by
  rintro ⟨hres, -⟩
  obtain ⟨env, hmount⟩ := h.mount
  rw [hres] at hmount
  have hfound := spfsFillSuperBlock_magic hmount
  rw [deviceWorld_device] at hfound
  exact hmagic hfound

end Session

/-- Whatever comes after a session that stored nothing is safe. -/
theorem safeAfter_of_unchanged {s t : Session} (hids : s.ids = []) (hsectors : s.sectors = ∅) : SafeAfter s t := by
  refine ⟨?_, ?_, ?_⟩
  · rw [hsectors]
    exact Set.empty_disjoint _
  · rw [hids]
    exact nofun
  · rw [hids]
    exact nofun

/-- A session that comes after one that stored an inode does not find it. -/
theorem not_safeAfter {s t : Session} (hs : s.Runs) (ht : t.Runs) (hnext : t.data = s.left)
    (hempty : EmptyTree s.data) (hids : s.ids ≠ []) : ¬ SafeAfter s t := by
  intro hsafe
  obtain ⟨id, hid⟩ := List.exists_mem_of_ne_nil s.ids hids
  have hmagic := hs.magic hempty hids
  rw [← hnext] at hmagic
  exact ht.not_finds hmagic id (hsafe.found id hid)

/-- On a device with an empty tree no session but the last may store an inode. -/
theorem Sessions.safe_iff {data : Block} {ss : List Session} (h : Sessions data ss) (hempty : EmptyTree data) :
    RemountSafe ss ↔ ∀ s ∈ ss.dropLast, s.ids = [] := by
  induction h with
  | nil => exact ⟨fun _ => nofun, fun _ => .nil⟩
  | @cons data s ss hdata hs hrest ih =>
    subst hdata
    cases hrest with
    | nil => exact ⟨fun _ => nofun, fun _ => List.pairwise_singleton _ _⟩
    | @cons _ t ts hnext ht hrest' =>
      rw [List.dropLast_cons_of_ne_nil (List.cons_ne_nil t ts), List.forall_mem_cons, RemountSafe, List.pairwise_cons]
      by_cases hids : s.ids = []
      · have hlast := hs.unchanged hempty hids
        have hleft : s.left = s.data := by
          rw [s.left_eq, hlast]
          exact hs.device
        rw [hleft] at ih
        rw [← RemountSafe, ih hempty]
        have hsafe (t : Session) : SafeAfter s t := safeAfter_of_unchanged hids (Session.sectors_of_unchanged hlast)
        exact ⟨fun h => ⟨hids, h.2⟩, fun h => ⟨fun t _ => hsafe t, h.2⟩⟩
      · have hunsafe : ¬ SafeAfter s t := not_safeAfter hs ht hnext hempty hids
        exact ⟨fun h => absurd (h.1 t List.mem_cons_self) hunsafe, fun h => absurd h.1 hids⟩

end Spfs
