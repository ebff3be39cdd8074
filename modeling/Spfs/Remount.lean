-- SUMMARY: Sessions on an image of mkfs: the device can be mounted, and a second time only if nothing was stored.
import Spfs.Inode.Reuse
import Spfs.Mkfs.Space
import Spfs.Namespace.Law
import Spfs.Sessions

/-!
# Mounting again

The image of `mkfs` has an empty tree, so what holds for the sessions on such a device holds
for it. One file that is created is enough for the next mount to fail.
-/

namespace Spfs

open EStateM (run_bind_of_ok)

section Image

variable {fd fd' : OpenFile} {env : Env} {w : World}

theorem mkfsMain_freshImage (hpos : fd.pos = 0) (hblk : 512 ≤ fd.blksize) (hblk' : fd.blksize < 2 ^ 32)
    (hmkfs : mkfsMain.run fd = .ok 0 fd') : fd'.data = freshImage fd.blksize fd.dataBlocks fd.data := by
  obtain ⟨-, -, hdata⟩ := run_mkfsMain hpos hblk hblk' hmkfs
  rw [fd.dataBlocks_eq] at hdata
  exact hdata

theorem storedSuper_mkfs (hpos : fd.pos = 0) (hblk : 512 ≤ fd.blksize) (hblk' : fd.blksize < 2 ^ 32)
    (hmkfs : mkfsMain.run fd = .ok 0 fd') : storedSuper fd'.data = mkfsSuperBlockOf fd.blksize .zero := by
  rw [mkfsMain_freshImage hpos hblk hblk' hmkfs]
  exact parsedSuper_imageWith hblk hblk' _

theorem emptyTree_mkfs (hpos : fd.pos = 0) (hblk : 512 ≤ fd.blksize) (hblk' : fd.blksize < 2 ^ 32)
    (hmkfs : mkfsMain.run fd = .ok 0 fd') : EmptyTree fd'.data := by
  have hstored := storedSuper_mkfs hpos hblk hblk' hmkfs
  refine ⟨congrArg (·.btreeOffset) hstored, ?_⟩
  rw [hstored]
  show (1 + 1) % 2 ^ 32 ≠ 0
  decide

/-- Sessions on an image of `mkfs` are safe when no session but the last stores an inode, and
only then. -/
theorem remountSafe_iff {ss : List Session} (hpos : fd.pos = 0) (hblk : 512 ≤ fd.blksize)
    (hblk' : fd.blksize < 2 ^ 32) (hmkfs : mkfsMain.run fd = .ok 0 fd') (h : Sessions fd'.data ss) :
    RemountSafe ss ↔ ∀ s ∈ ss.dropLast, s.ids = [] :=
  h.safe_iff (emptyTree_mkfs hpos hblk hblk' hmkfs)

/-! ## An image that is mounted -/

theorem readDevice_mkfs (hpos : fd.pos = 0) (hblk : 512 ≤ fd.blksize) (hblk' : fd.blksize < 2 ^ 32)
    (hmkfs : mkfsMain.run fd = .ok 0 fd') (henv : env.Grants) (hfuel : 1 ≤ env.fuel)
    (hsizes : ∀ n, env.blocksizeOk n = true) (hdev : w.device = fd'.data) :
    ∃ w', (readDevice env).run w = .ok 0 w' := by
  have himage := mkfsMain_freshImage hpos hblk hblk' hmkfs
  have hinitial : spookyFsInitialBlockSize ≤ spookyFsInitialBlockSize ∧ spookyFsInitialBlockSize < 2 ^ 32 := by
    decide
  set w₁ := w.recut spookyFsInitialBlockSize hinitial
  have hdev₁ : w₁.device = fd'.data := (w.recut_device hinitial : SameDevice w w₁).trans hdev
  have hshows₁ : w₁.Shows fd'.data := hdev₁ ▸ w₁.shows_device
  rw [himage] at hshows₁
  obtain ⟨w₂, hsuper, hdescribes, hdisk, hbSize⟩ := @spfsSuperBlockInit_imageWith fd.blksize _ fd.data env w₁
    hblk hblk' (henv.io _ _) hshows₁ fd.dataBlocks
  obtain ⟨-, -, hsize, -, -, hoffset, hhead⟩ := hdescribes
  have hsize' : w₂.sbi.blockSize = fd.blksize := hsize.symm
  have hbounds : spookyFsInitialBlockSize ≤ w₂.sbi.blockSize ∧ w₂.sbi.blockSize < 2 ^ 32 := by
    rw [hsize']
    exact ⟨hblk, hblk'⟩
  set w₃ := (w₂.recut w₂.sbi.blockSize hbounds).withTree w₂.sbi.btreeOffset
  have hdev₃ : w₃.device = fd'.data := by
    have hsame : w₂.device = w₁.device := by rw [World.device, World.device, hdisk, hbSize]
    exact (w₂.recut_device hbounds : SameDevice _ _).trans (hsame.trans hdev₁)
  have hshows₃ : w₃.Shows fd'.data := hdev₃ ▸ w₃.shows_device
  rw [himage] at hshows₃
  obtain ⟨w', hload, -⟩ := (@kernelAccepts_freshImage fd.blksize fd.dataBlocks fd.data hblk hblk').freeList env w₃
    henv hfuel hsize' hshows₃
  refine ⟨w', ?_⟩
  rw [readDevice, run_bind_of_ok (run_spfsSetBlocksize hinitial (hsizes _)), if_neg (by simp), run_bind_of_ok hsuper,
    if_neg (by simp), run_bind_of_ok (EStateM.run_get w₂), run_bind_of_ok (run_spfsSetBlocksize hbounds (hsizes _)),
    if_neg (by simp), run_bind_of_ok (EStateM.run_get _)]
  have htree : (spfsBtreeInit w₂.sbi.btreeOffset).run (w₂.recut w₂.sbi.blockSize hbounds) = .ok 0 w₃ := rfl
  have hhead₃ : w₃.sbi.freeListOffset = (superFor fd.blksize fd.dataBlocks).freeListOffset := hhead.symm
  refine (run_bind_of_ok htree).trans ?_
  rw [if_neg (by simp), run_bind_of_ok (EStateM.run_get w₃), hhead₃]
  exact hload

/-- The state after an image was mounted, with nothing stored on it. -/
structure FreshMount (fd : OpenFile) (w : World) : Prop where
  bSize : w.bSize = fd.blksize
  start : w.sbi.tree.start = 0
  blocks : w.sbi.tree.blocks = 1
  id : w.sbi.id = 2
  freeList : w.sbi.freeList = oneEntry (fd.dataBlocks % 2 ^ 32)
  root : ∃ i, w.inodes = Function.update (fun _ => none) 1 (some i) ∧ Usable i ∧ i.start = 0

theorem spfsFillSuperBlock_mkfs (hpos : fd.pos = 0) (hblk : 512 ≤ fd.blksize) (hblk' : fd.blksize < 2 ^ 32)
    (hmkfs : mkfsMain.run fd = .ok 0 fd') :
    ∃ w, (spfsFillSuperBlock (handsOut 9)).run (deviceWorld fd'.data) = .ok 0 w ∧ FreshMount fd w := by
  have henv : (handsOut 9).Grants := ⟨fun _ _ => rfl, fun _ => rfl⟩
  have hdev : (deviceWorld fd'.data).withZeroSuper.device = fd'.data := deviceWorld_device fd'.data []
  obtain ⟨w₁, hread⟩ := readDevice_mkfs hpos hblk hblk' hmkfs henv (by decide) (fun _ => rfl) hdev
  have htaken := readDevice_zero hread
  have hstored : storedSuper (deviceWorld fd'.data).withZeroSuper.device = mkfsSuperBlockOf fd.blksize .zero := by
    rw [hdev]
    exact storedSuper_mkfs hpos hblk hblk' hmkfs
  have hsize₁ : w₁.bSize = fd.blksize := htaken.bSize.trans (congrArg (·.blockSize) hstored)
  have htree₁ : w₁.sbi.tree = ⟨fd.blksize, 1, 0⟩ := by
    rw [htaken.tree, hstored]
    rfl
  have hid₁ : w₁.sbi.id = 1 := htaken.id.trans (congrArg (·.id) hstored)
  have hlist₁ : w₁.sbi.freeList = oneEntry (fd.dataBlocks % 2 ^ 32) := by
    obtain ⟨wl, hdevl, hsizel, hload⟩ := htaken.list
    rw [hstored] at hload
    have hshows : wl.Shows fd'.data := (hdevl.trans hdev) ▸ wl.shows_device
    exact spfsFreeInit_mkfs hpos hblk hblk' hmkfs henv (hsizel.trans hsize₁) hshows hload
  obtain ⟨r, w₂, hroot, hr⟩ := mountRoot_emptyTree (handsOut 9) (congrArg (·.start) htree₁) htaken.inodes
  rcases hr with ⟨-, t, hpick⟩ | ⟨rfl, hnew⟩
  · cases hpick
  obtain ⟨slab, k, t, t', hslab, hpick, hinodes⟩ := hnew.inodes
  obtain rfl := Option.some.inj hpick
  have hshort : slab[9]? = none := by
    have hnil : w₁.slab = [] := htaken.slab
    rw [hnil] at hslab
    have hone : slab.length ≤ 1 := hslab
    exact List.getElem?_eq_none (by omega)
  rw [hshort, hid₁] at hinodes
  set root := rootInode (handsOut 9) t' 1 spfsInodeInitOnce
  have hat : w₂.inodes w₁.sbi.id = some root := by
    rw [hid₁, hinodes]
    exact Function.update_self ..
  refine ⟨_, run_spfsFillSuperBlock rfl hread hroot hat, ?_⟩
  refine ⟨hnew.bSize.trans hsize₁, ?_, ?_, ?_, hnew.freeList.trans hlist₁,
    { root with iUid := (handsOut 9).fsuid, iGid := (handsOut 9).fsgid }, ?_, ⟨rfl, ?_, rfl⟩, rfl⟩
  · exact (congrArg (·.start) hnew.tree).trans (congrArg (·.start) htree₁)
  · exact (congrArg (·.blocks) hnew.tree).trans (congrArg (·.blocks) htree₁)
  · exact hnew.id.trans (congrArg (fun n => (n + 1) % 2 ^ 64) hid₁)
  · rw [World.setInode_inodes, hinodes, hid₁, Function.update_idem]
  · show sIsDir rootMode = true
    decide

end Image

/-! ## A file that is lost -/

/-- An empty file of twelve blocks of 4096 bytes. -/
def twelveBlocks : OpenFile := { threeBlocks with size := 12 * 4096, blksize := 4096 }

theorem twelveBlocks_mkfs : ∃ fd', mkfsMain.run twelveBlocks = .ok 0 fd' :=
  mkfsMain_exits_zero twelveBlocks rfl (by decide) (by decide) (by decide)

/-- A file can be created on a device that was just mounted. -/
theorem FreshMount.creates {w : World} (h : FreshMount twelveBlocks w) :
    ∃ w', (spfsCreate (handsOut 9) 1 ⟨[97], none⟩ S_IFREG).run w = .ok (0, ⟨[97], some 2⟩) w' := by
  obtain ⟨dir, hinodes, husable, hstart⟩ := h.root
  have hp : w.inodes 1 = some dir := by
    rw [hinodes]
    exact Function.update_self ..
  have hfree : w.inodes w.sbi.id = none := by
    rw [hinodes, h.id]
    rfl
  have hlist : w.sbi.freeList = oneEntry 10 := h.freeList
  have hrecord : recordPage w = 11 := by
    rw [recordPage, hlist, h.blocks]
    decide
  have hroot : rootPage w = 10 := by
    rw [rootPage, listAfterPage, hlist, h.blocks]
    decide
  have hchild : childPage w = 9 := by
    rw [childPage, listAfterRoot, listAfterPage, hlist, h.blocks]
    decide
  have hgets : GetsInode .create (handsOut 9) S_IFREG w 9 := ⟨rfl, hfree, rfl⟩
  have hbig : 1620 ≤ w.bSize := by
    rw [h.bSize]
    decide
  have hstores : StoresNext (handsOut 9) w :=
    ⟨h.start, by rw [hrecord]; decide, rfl, fun _ => ⟨by rw [hroot]; decide, rfl, hbig⟩⟩
  have hname : ([97] : List UInt8).length ≤ spookyFsNameMax := by decide
  obtain ⟨w', hrun, -⟩ := createOp_first hp husable hstart hname hgets hstores (by rw [h.id]; decide)
    (by rw [hchild]; decide) rfl
  rw [h.id] at hrun
  exact ⟨w', hrun⟩

/-- One session creates a file, and the device cannot be mounted after it. -/
theorem sessions_lostFile : ∃ fd' s t, mkfsMain.run twelveBlocks = .ok 0 fd' ∧ Sessions fd'.data [s, t] ∧
    s.res = 0 ∧ s.ids = [2] ∧ t.res = -EINVAL := by
  obtain ⟨fd', hmkfs⟩ := twelveBlocks_mkfs
  have hempty : EmptyTree fd'.data := emptyTree_mkfs rfl (by decide) (by decide) hmkfs
  obtain ⟨w, hmount, hfresh⟩ := spfsFillSuperBlock_mkfs rfl (by decide) (by decide) hmkfs
  obtain ⟨w', hcreate⟩ := hfresh.creates
  set s : Session := ⟨fd'.data, [], 0, w, [2], w'⟩
  have hruns : s.Runs := ⟨⟨_, hmount⟩, fun _ => .created .start hcreate rfl, fun hne => absurd rfl hne⟩
  have hmagic : (storedSuper (deviceWorld s.left).device).magic ≠ spookyFsSuperMagic := by
    have hdevice : (deviceWorld s.left).device = s.left := deviceWorld_device s.left []
    rw [hdevice]
    exact hruns.magic hempty (List.cons_ne_nil 2 [])
  obtain ⟨w₂, hrefused⟩ :=
    @run_spfsFillSuperBlock_refused (handsOut 9) (deviceWorld s.left) rfl rfl (fun _ => rfl)
    hmagic
  set t : Session := ⟨s.left, [], -EINVAL, w₂, [], w₂⟩
  have hfailed : t.res ≠ 0 := show -EINVAL ≠ 0 by decide
  have hruns' : t.Runs := ⟨⟨_, hrefused⟩, fun hzero => absurd hzero hfailed, fun _ => ⟨rfl, rfl⟩⟩
  exact ⟨fd', s, t, hmkfs, .cons rfl hruns (.cons rfl hruns' .nil), rfl, rfl, rfl⟩

theorem remountSafe_iff_lostFile : ∃ fd' s t, mkfsMain.run twelveBlocks = .ok 0 fd' ∧
    Sessions fd'.data [s, t] ∧ (RemountSafe [s, t] ↔ ∀ s' ∈ [s, t].dropLast, s'.ids = []) := by
  obtain ⟨fd', s, t, hmkfs, hsessions, -⟩ := sessions_lostFile
  exact ⟨fd', s, t, hmkfs, hsessions, remountSafe_iff rfl (by decide) (by decide) hmkfs hsessions⟩

/-- The file is not found in the second session, since there is none. -/
theorem not_remountSafe_lostFile : ∃ fd' s t, mkfsMain.run twelveBlocks = .ok 0 fd' ∧
    Sessions fd'.data [s, t] ∧ s.res = 0 ∧ s.ids = [2] ∧ t.res = -EINVAL ∧ ¬ RemountSafe [s, t] := by
  obtain ⟨fd', s, t, hmkfs, hsessions, hres, hids, hrefused⟩ := sessions_lostFile
  have hempty : EmptyTree fd'.data := emptyTree_mkfs rfl (by decide) (by decide) hmkfs
  refine ⟨fd', s, t, hmkfs, hsessions, hres, hids, hrefused, fun hsafe => ?_⟩
  have hnil := (hsessions.safe_iff hempty).mp hsafe s List.mem_cons_self
  rw [hids] at hnil
  cases hnil

end Spfs
