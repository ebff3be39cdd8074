-- SUMMARY: An image that mkfs made is accepted by fsck and by the kernel, and both read the same super block and the same free list from it.
import Spfs.FreeList.Safety
import Spfs.Fsck
import Spfs.Mkfs
import Spfs.Super

/-!
# Fresh images

Three codecs meet here: the buffers that `mkfs` fills, the file reads of `fsck` and
the buffer reads of the kernel. The image is described once (`wireSuper_imageWith`,
`good_freshImage`), and each reader is run on that description.
-/

namespace Spfs

/-- A device with a super block at its start and `l` at the start of block 1. -/
def imageWith (blksize : ℕ) (l : List UInt8) (old : Block) : Block :=
  (old.write 0 (superBlockBytes blksize)).write blksize l

/-- The device after `mkfs`. -/
def freshImage (blksize blocks : ℕ) (old : Block) : Block :=
  imageWith blksize (mkfsFreeListFields blocks).flatten old

section Super

variable {blksize : ℕ} {l : List UInt8} {old : Block}

/-- A field of the super block stands at the end of those before it. -/
theorem number_imageWith {n : ℕ} (h : 512 ≤ blksize) (k pos : ℕ) (hin : pos + 4 ≤ 28)
    (hk : (mkfsSuperBlockFields blksize)[k]? = some (beEncode 4 n))
    (hpos : ((mkfsSuperBlockFields blksize).take k).flatten.length = pos) :
    beDecode ((imageWith blksize l old).read pos 4) = n % 2 ^ 32 := by
  have hlen : (mkfsSuperBlockFields blksize).flatten.length = 28 := by simp [mkfsSuperBlockFields]
  have hread := old.number_write_flatten 0 k pos hk hpos
  rw [Nat.zero_add] at hread
  rw [imageWith, Block.read_write_of_disjoint (by omega), superBlockBytes, Block.write_append,
    Block.read_write_of_disjoint (by omega)]
  exact hread

/-- What the super block of the image decodes to. -/
theorem wireSuper_imageWith (h : 512 ≤ blksize) (h' : blksize < 2 ^ 32) (super : SuperBlockWire) :
    wireSuper super (imageWith blksize l old) = superFor blksize super.blocks := by
  rw [wireSuper, number_imageWith h 0 0 (by decide) rfl rfl,
    number_imageWith h 1 4 (by decide) rfl rfl, number_imageWith h 2 8 (by decide) rfl rfl,
    number_imageWith h 3 12 (by decide) rfl rfl, number_imageWith h 4 16 (by decide) rfl rfl,
    number_imageWith h 5 20 (by decide) rfl rfl, number_imageWith h 6 24 (by decide) rfl rfl,
    Nat.mod_eq_of_lt h']
  rfl

/-- `fsck` reads the super block and accepts it. -/
theorem readSuperBlock_imageWith (fd : OpenFile) (h : 512 ≤ blksize) (h' : blksize < 2 ^ 32)
    (hdvd : 512 ∣ blksize) (hdata : fd.data = imageWith blksize l old) (hsize : 28 ≤ fd.size)
    (super : SuperBlockWire) :
    (readSuperBlock super).run fd = .ok (some (superFor blksize super.blocks)) (fd.seek 28) ∧
      fsckSuperBlock (superFor blksize super.blocks) = 0 := by
  refine ⟨?_, fsckSuperBlock_eq_zero.mpr ⟨rfl, h, hdvd⟩⟩
  rw [run_readSuperBlock hsize, hdata, wireSuper_imageWith h h']

/-- The super block of the mount with the fields of `mkfs`. -/
def mkfsSuperBlockOf (blksize : ℕ) (super : SuperBlock) : SuperBlock :=
  { super with
    magic := spookyFsSuperMagic
    version := 1
    blockSize := blksize
    id := spfsRootInodeNo
    rootId := spfsRootInodeNo
    btreeOffset := 0
    freeListOffset := 1 }

theorem parsedSuper_imageWith (h : 512 ≤ blksize) (h' : blksize < 2 ^ 32) (super : SuperBlock) :
    parsedSuper super (imageWith blksize l old) = mkfsSuperBlockOf blksize super := by
  rw [parsedSuper, number_imageWith h 0 0 (by decide) rfl rfl, number_imageWith h 1 4 (by decide) rfl rfl,
    number_imageWith h 2 8 (by decide) rfl rfl, number_imageWith h 3 12 (by decide) rfl rfl,
    number_imageWith h 4 16 (by decide) rfl rfl, number_imageWith h 5 20 (by decide) rfl rfl,
    number_imageWith h 6 24 (by decide) rfl rfl, Nat.mod_eq_of_lt h']
  rfl

/-- The kernel reads the super block and accepts it. -/
theorem spfsSuperBlockInit_imageWith (env : Env) {w : World} (h : 512 ≤ blksize)
    (h' : blksize < 2 ^ 32) (hio : env.ioOk w.time 0 = true)
    (hdev : w.Shows (imageWith blksize l old)) (blocks : ℕ) :
    ∃ w', (spfsSuperBlockInit env 0).run w = .ok 0 w' ∧
      (superFor blksize blocks).Describes w'.sbi ∧ w'.disk = w.disk ∧ w'.bSize = w.bSize := by
  have hle := w.le_bSize
  have hfield : ∀ pos, pos + 4 ≤ 28 → (w.disk 0).read pos 4 =
      (imageWith blksize l old).read pos 4 := by
    intro pos hin
    rw [hdev.read (by omega), Nat.zero_mul, Nat.zero_add]
  have hparsed : parsedSuper w.sbi (w.disk 0) = mkfsSuperBlockOf blksize w.sbi := by
    rw [parsedSuper, hfield 0 (by decide), hfield 4 (by decide), hfield 8 (by decide),
      hfield 12 (by decide), hfield 16 (by decide), hfield 20 (by decide), hfield 24 (by decide)]
    exact parsedSuper_imageWith h h' w.sbi
  obtain ⟨w', hrun, hlogs⟩ := run_spfsSuperBlockInit 0 hio
  rw [hparsed] at hrun hlogs
  refine ⟨w', ?_, ?_, hlogs.disk, hlogs.bSize⟩
  · rw [hrun, superCheck, if_pos ⟨rfl, h⟩]
  · rw [hlogs.sbi]
    exact ⟨rfl, rfl, rfl, rfl, rfl, rfl, rfl⟩

end Super

section Image

variable {blksize blocks : ℕ} {old : Block}

theorem number_freshList {n : ℕ} (k pos : ℕ)
    (hk : (mkfsFreeListFields blocks)[k]? = some (beEncode 4 n))
    (hpos : ((mkfsFreeListFields blocks).take k).flatten.length = pos) :
    beDecode ((freshImage blksize blocks old).read (blksize + pos) 4) = n % 2 ^ 32 :=
  (old.write 0 (superBlockBytes blksize)).number_write_flatten blksize k pos hk hpos

theorem headerAt_freshImage :
    headerAt (freshImage blksize blocks old) blksize = ⟨spookyFsFlMagic, 1, 0⟩ := by
  rw [headerAt, number_freshList 1 4 rfl rfl, number_freshList 2 8 rfl rfl,
    ← Nat.add_zero blksize, number_freshList 0 0 rfl rfl]
  rfl

theorem entriesAt_freshImage :
    entriesAt (freshImage blksize blocks old) (blksize + 12) 1 = [⟨2, blocks % 2 ^ 32⟩] := by
  rw [entriesAt, entriesAt, freeEntryAt, number_freshList 3 12 rfl rfl, Nat.add_assoc,
    number_freshList 4 16 rfl rfl]
  rfl

/-- A device with the blocks that `mkfs` writes is an image of it. -/
theorem eq_freshImage {data : Block} (hblk : 512 ≤ blksize)
    (h : ∀ a < 2 * blksize, data a = freshImage blksize blocks old a) : data = freshImage blksize blocks data := by
  have hlen := length_superBlockBytes hblk
  have hlist : (mkfsFreeListFields blocks).flatten.length = 20 := by simp [mkfsFreeListFields]
  have hread (pos len : ℕ) (hin : pos + len ≤ 2 * blksize) :
      data.read pos len = (freshImage blksize blocks old).read pos len :=
    Block.read_congr fun i hi => h (pos + i) (by omega)
  have hsuper : data.read 0 (superBlockBytes blksize).length = superBlockBytes blksize := by
    rw [hread 0 _ (by omega), freshImage, imageWith, Block.read_write_of_disjoint (by omega),
      Block.read_write_same rfl]
  have hentry : data.read blksize (mkfsFreeListFields blocks).flatten.length = (mkfsFreeListFields blocks).flatten := by
    rw [hread blksize _ (by omega), freshImage, imageWith, Block.read_write_same rfl]
  have hkept : data.write 0 (superBlockBytes blksize) = data := by
    rw [← hsuper, Block.write_read_self]
  rw [freshImage, imageWith, hkept, ← hentry, Block.write_read_self]

/-- Whoever looks for block 1 behind the super block sees a good block with one entry
and no next block. -/
theorem good_freshImage {v : FreeListView} (hdata : v.data = freshImage blksize blocks old)
    (haddr : v.addr 1 = blksize) (hlimit : blksize + 20 ≤ v.limit 1) :
    v.Good 1 ∧ (v.header 1).next = 0 ∧ v.table 1 = [⟨2, blocks % 2 ^ 32⟩] := by
  have hheader : v.header 1 = ⟨spookyFsFlMagic, 1, 0⟩ := by
    rw [FreeListView.header, hdata, haddr, headerAt_freshImage]
  refine ⟨⟨by rw [hheader], ?_⟩, by rw [hheader], ?_⟩
  · rw [hheader, haddr]
    exact hlimit
  · rw [FreeListView.table, hheader, hdata, haddr, entriesAt_freshImage]

end Image

/-- The file as the next program finds it when it opens it. -/
def OpenFile.reopen (fd : OpenFile) : OpenFile := { fd with pos := 0, printed := [] }

/-- `fsck` accepts the file and prints the entries. -/
structure FsckAccepts (fd : OpenFile) (given : SuperBlockWire) (es : List FreeNode) : Prop where
  super : ∀ super, ∃ super' fd', (readSuperBlock super).run fd = .ok (some super') fd' ∧
    super' = { given with blocks := super.blocks } ∧ fsckSuperBlock super' = 0
  freeList : ∀ n, ∃ fd', (fsckFreeList (n + 1) given).run fd = .ok 0 fd' ∧ fd'.printed.reverse = es

/-- The program exits with 0 on a file that it accepts. -/
theorem FsckAccepts.main {fd : OpenFile} {given : SuperBlockWire} {es : List FreeNode} (h : FsckAccepts fd given es)
    (n : ℕ) (super : SuperBlockWire) :
    ∃ fd', (fsckMain (n + 1) super).run fd = .ok 0 fd' ∧ fd'.printed.reverse = es := by
  obtain ⟨super', fd₁, hread, rfl, hfsck⟩ := h.super super
  obtain ⟨-, rfl⟩ := readSuperBlock_eq_some hread
  obtain ⟨fd', hlist, hprinted⟩ := h.freeList n
  -- the loop begins with a seek, so it does not matter where the file stands
  have hlist' : (fsckFreeList (n + 1) { given with blocks := super.blocks }).run (fd.seek 28) = .ok 0 fd' := by
    rw [fsckFreeList, fsckFreeListDo, EStateM.run_bind_of_ok (run_lseekSet _ _)] at hlist ⊢
    exact hlist
  refine ⟨fd', ?_, hprinted⟩
  rw [fsckMain, EStateM.run_bind_of_ok hread]
  dsimp only
  rw [if_neg (not_not.mpr hfsck), EStateM.run_bind_of_ok hlist']
  rfl

/-- It exits with 1 when there is no super block. -/
theorem run_fsckMain_noSuper {fd : OpenFile} (hsize : 28 ≤ fd.size)
    (hmagic : (wireSuper super fd.data).magic ≠ spookyFsSuperMagic) (n : ℕ) :
    (fsckMain n super).run fd = .ok 1 (fd.seek 28) := by
  have hfsck : fsckSuperBlock (wireSuper super fd.data) ≠ 0 := fun h => hmagic (fsckSuperBlock_eq_zero.mp h).1
  rw [fsckMain, EStateM.run_bind_of_ok (run_readSuperBlock hsize)]
  dsimp only
  rw [if_pos hfsck]
  rfl

/-- The kernel, whose reads and allocations succeed, accepts the device: its super
block while blocks have the initial size, and its free list afterwards. -/
structure KernelAccepts (data : Block) (given : SuperBlockWire) (es : List FreeNode) : Prop where
  super : ∀ (env : Env) (w : World), env.Grants → w.bSize = spookyFsInitialBlockSize →
    w.Shows data → ∃ w', (spfsSuperBlockInit env 0).run w = .ok 0 w' ∧ given.Describes w'.sbi
  freeList : ∀ (env : Env) (w : World), env.Grants → 1 ≤ env.fuel → w.bSize = given.blockSize →
    w.Shows data → ∃ w', (spfsFreeInit env given.freeListOffset).run w = .ok 0 w' ∧
      w'.sbi.freeList.root.reverse = es

section Accepted

variable {blksize blocks size : ℕ} {old : Block}

theorem fsckAccepts_freshImage {fd : OpenFile} (h : 512 ≤ blksize) (h' : blksize < 2 ^ 32)
    (hdvd : 512 ∣ blksize) (hdata : fd.data = freshImage blksize blocks old)
    (hsize : 2 * blksize ≤ fd.size) (hprinted : fd.printed = []) :
    FsckAccepts fd (superFor blksize blocks) [⟨2, blocks % 2 ^ 32⟩] where
  super super := by
    obtain ⟨hrun, hfsck⟩ := readSuperBlock_imageWith fd h h' hdvd hdata (by omega) super
    exact ⟨_, _, hrun, rfl, hfsck⟩
  freeList n := by
    obtain ⟨hgood, hnext, htable⟩ := good_freshImage (v := fsckView blksize fd.size fd.data) hdata
      (show 1 * blksize % 2 ^ 32 = blksize by omega) (show blksize + 20 ≤ fd.size by omega)
    obtain ⟨fd', -, -, hprint, hrun⟩ := fsckFreeListDo_good hgood
    refine ⟨fd', ?_, ?_⟩
    · rw [fsckFreeList]
      refine (hrun n).trans ?_
      rw [if_neg (not_not.mpr hnext)]
    · rw [hprint, hprinted, htable]
      rfl

theorem kernelAccepts_freshImage (h : 512 ≤ blksize) (h' : blksize < 2 ^ 32) :
    KernelAccepts (freshImage blksize blocks old) (superFor blksize blocks)
      [⟨2, blocks % 2 ^ 32⟩] where
  super env w henv _ hdev := by
    obtain ⟨w', hrun, hsuper, -⟩ := spfsSuperBlockInit_imageWith env h h' (henv.io w.time 0) hdev blocks
    exact ⟨w', hrun, hsuper⟩
  freeList env w henv hfuel hsize hdev := by
    have hbs : w.bSize = blksize := hsize
    obtain ⟨hgood, hnext, htable⟩ := good_freshImage
      (v := kernelView w.bSize (freshImage blksize blocks old)) rfl
      (show 1 * w.bSize = blksize by omega) (show blksize + 20 ≤ 1 * w.bSize + w.bSize by omega)
    obtain ⟨n, hn⟩ := Nat.exists_eq_add_of_le' hfuel
    obtain ⟨res, w', hrun⟩ := spfsFreeInit_returns henv hn hdev
      (.inr ⟨by decide, .last hgood hnext⟩)
    have hwell := FreeListView.WellFormed.last hgood hnext
    obtain ⟨rfl, es, ⟨h1, -⟩ | ⟨-, hes⟩, hfl⟩ | ⟨-, -, hbroken⟩ := spfsFreeInit_loads henv hdev hrun
    · cases h1
    · refine ⟨w', hrun, ?_⟩
      rw [hfl, root_foldl_push, List.append_nil, List.reverse_reverse, hes.unique hwell, htable]
    · exact absurd hbroken hwell.not_broken

end Accepted

/-- Every image that `mkfs` made is accepted by `fsck` and by the kernel, with the
super block that `mkfs` was given and one free entry that lies behind the first two
blocks and inside the device. -/
theorem mkfs_image_accepted {fd fd' : OpenFile} (hpos : fd.pos = 0) (hdvd : 512 ∣ fd.blksize)
    (hblk : 512 ≤ fd.blksize) (hblk' : fd.blksize < 2 ^ 32) (hrun : mkfsMain.run fd = .ok 0 fd') :
    ∃ given blocks,
      given = superFor fd.blksize ((fd.size - 2 * fd.blksize) / fd.blksize) ∧
      FsckAccepts fd'.reopen given [⟨2, blocks⟩] ∧ KernelAccepts fd'.data given [⟨2, blocks⟩] ∧
      blocks < 2 ^ 32 ∧ 0 ∉ FreeNode.range ⟨2, blocks⟩ ∧ 1 ∉ FreeNode.range ⟨2, blocks⟩ ∧
      (2 + blocks) * fd.blksize ≤ fd.size := by
  obtain ⟨hthree, hsize, hdata⟩ := run_mkfsMain hpos hblk hblk' hrun
  let blocks := (fd.size - 2 * fd.blksize) / fd.blksize
  have hdata' : fd'.data = freshImage fd.blksize blocks fd.data := hdata
  have hle : blocks % 2 ^ 32 ≤ blocks := Nat.mod_le _ _
  have hmul : blocks * fd.blksize ≤ fd.size - 2 * fd.blksize := Nat.div_mul_le_self _ _
  refine ⟨superFor fd.blksize blocks, blocks % 2 ^ 32, rfl, ?_, ?_, Nat.mod_lt _ (by decide), ?_, ?_,
    ?_⟩
  · refine fsckAccepts_freshImage hblk hblk' hdvd hdata' ?_ rfl
    show 2 * fd.blksize ≤ fd'.size
    omega
  · rw [hdata']
    exact kernelAccepts_freshImage hblk hblk'
  · simp [FreeNode.range]
  · simp [FreeNode.range]
  · have : (blocks % 2 ^ 32) * fd.blksize ≤ blocks * fd.blksize := Nat.mul_le_mul_right _ hle
    rw [Nat.add_mul]
    omega

/-- An empty file of three blocks of 512 bytes. -/
def threeBlocks : OpenFile where
  data := fun _ => 0
  size := 1536
  blksize := 512
  pos := 0
  printed := []

theorem mkfs_image_accepted_threeBlocks : ∃ fd', mkfsMain.run threeBlocks = .ok 0 fd' ∧
    ∃ given blocks, given = superFor 512 ((1536 - 2 * 512) / 512) ∧
      FsckAccepts fd'.reopen given [⟨2, blocks⟩] ∧ KernelAccepts fd'.data given [⟨2, blocks⟩] ∧
      blocks < 2 ^ 32 ∧ 0 ∉ FreeNode.range ⟨2, blocks⟩ ∧ 1 ∉ FreeNode.range ⟨2, blocks⟩ ∧
      (2 + blocks) * 512 ≤ 1536 := by
  obtain ⟨fd', hrun⟩ := mkfsMain_exits_zero threeBlocks rfl (by decide) (by decide)
    (by decide)
  exact ⟨fd', hrun, @mkfs_image_accepted threeBlocks fd' rfl ⟨1, rfl⟩ (by decide) (by decide) hrun⟩

end Spfs
