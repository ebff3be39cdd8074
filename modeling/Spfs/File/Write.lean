-- SUMMARY: The first write to an empty file: the extent it makes, what it stores there, and that it fails nevertheless.
import Spfs.Btree.Exact
import Spfs.File.Extent
import Spfs.File.Frame

/-!
# The first write to a file

A write to an empty file allocates one extent for all of its bytes, stores them
there, and then takes the number of bytes in the first block for an error. It
returns `-EIO` and keeps the lock (`run_spfsWrite_first`).
-/

namespace Spfs

/-! ## Extents and records -/

/-- A header is no record of a regular file: where a record has the mode, it has the
upper half of the capacity. -/
theorem spfsModifyStartCb_extent {b : Block} {e : FileExtent} (h : ExtentAt b e)
    (hcapacity : e.capacity < 2 ^ 31) (ctx : ModifyStart) (junk : SpfsInode) :
    spfsModifyStartCb ctx (parsedInode junk b) = .error .bug := by
  have hsplit : b.read 8 4 = b.read 8 2 ++ b.read 10 2 := Block.read_add b 8 2 2
  have hdecode : e.capacity = 256 ^ 2 * beDecode (b.read 8 2) + beDecode (b.read 10 2) := by
    rw [← h.eq, parsedExtent, hsplit, beDecode_append, Block.length_read]
  have hmode : sIsReg (beDecode (b.read 8 2)) = false := by
    rw [sIsReg, beq_eq_false_iff_ne]
    omega
  rw [spfsModifyStartCb]
  simp [parsedInode, hmode]

/-! ## How many blocks -/

/-- The blocks for some bytes have room for them, and less than a block too much. -/
theorem spfsBlocksFor_bounds {blockSize : ℕ} (h : 1 ≤ blockSize) (bytes : ℕ) :
    bytes ≤ spfsBlocksFor blockSize bytes * blockSize ∧
      spfsBlocksFor blockSize bytes * blockSize < bytes + blockSize := by
  induction bytes using Nat.strong_induction_on with
  | _ bytes ih =>
    rw [spfsBlocksFor]
    split
    next hzero => omega
    next hpos =>
      rw [Nat.add_mul, Nat.one_mul]
      rcases Nat.lt_or_ge blockSize bytes with hmore | hlast
      · have hless := ih (bytes - blockSize) (by omega)
        rw [Nat.min_eq_right hmore.le]
        omega
      · have hnone : spfsBlocksFor blockSize 0 = 0 := by simp [spfsBlocksFor]
        rw [Nat.min_eq_left hlast, Nat.sub_self, hnone]
        omega

/-- The longest write that the kernel lets through, `MAX_RW_COUNT`. -/
def maxRwCount : ℕ := 0x7ffff000

/-- The blocks of the extent that the first write of `len` bytes makes. -/
def firstBlocks (w : World) (len : ℕ) : ℕ := spfsBlocksFor w.bSize (len + 16)

theorem firstBlocks_bounds (w : World) {len : ℕ} (hlen : 1 ≤ len) (hmax : len ≤ maxRwCount) :
    1 ≤ firstBlocks w len ∧ firstBlocks w len < 2 ^ 31 ∧ len + 16 ≤ firstBlocks w len * w.bSize ∧
      firstBlocks w len * w.bSize - 16 < 2 ^ 32 := by
  obtain ⟨hle, hlt⟩ := spfsBlocksFor_bounds (le_trans (by omega) w.le_bSize) (len + 16)
  have hsize := w.le_bSize
  have hsize' := w.bSize_lt
  rw [maxRwCount] at hmax
  rw [firstBlocks]
  generalize spfsBlocksFor w.bSize (len + 16) = n at hle hlt ⊢
  have hpos : 1 ≤ n := by
    by_contra hzero
    rw [Nat.lt_one_iff.mp (Nat.not_le.mp hzero), Nat.zero_mul] at hle
    omega
  have hmany : n * 512 ≤ n * w.bSize := Nat.mul_le_mul_left n hsize
  -- a single block is below 2 ^ 32 by itself, and several are less than twice the bytes
  rcases Nat.lt_or_ge n 2 with hone | htwo
  · obtain rfl : n = 1 := by omega
    omega
  · have hblocks : 2 * w.bSize ≤ n * w.bSize := Nat.mul_le_mul_right w.bSize htwo
    omega

theorem spfsCalcExtraBlocks_first (w : World) {len : ℕ} (hlen : 1 ≤ len) (hmax : len ≤ maxRwCount) :
    spfsCalcExtraBlocks w.bSize 0 0 len = firstBlocks w len := by
  rw [maxRwCount] at hmax
  have hend : (0 + len) % 2 ^ 64 = len := by omega
  have hbytes : (len - 0 + spfsSizeofFileExtentHeader) % 2 ^ 64 = len + 16 := by
    rw [spfsSizeofFileExtentHeader]
    omega
  rw [spfsCalcExtraBlocks, hend, if_neg (by omega), hbytes, firstBlocks]

/-! ## Storing the bytes -/

section Run

variable {env : Env} {w : World} {s : ℕ}

/-- Storing bytes in an extent that has room for them and that nothing follows: the
header counts them, and the result counts those in the first block. -/
theorem run_spfsWriteFileExtent_first (hio : ∀ t s, env.ioOk t s = true)
    (hsize : w.sbi.blockSize = w.bSize) {n : ℕ} (hn : 1 ≤ n)
    (hext : ExtentAt (w.disk s) ⟨0, n, 0⟩) {buf : List UInt8} (hbuf : buf ≠ [])
    (hroom : buf.length + 16 ≤ n * w.bSize) (hlen : buf.length < 2 ^ 32) :
    ∃ res header rest w', (spfsWriteFileExtent env s ⟨buf, 0⟩ 0).run w =
        .ok (res, header, rest, 0) w' ∧ res ≠ 0 ∧ w'.inodes = w.inodes ∧ w'.bSize = w.bSize ∧
      ExtentAt (w'.disk s) ⟨0, n, buf.length⟩ := by
  obtain ⟨w', hrun, hwrites⟩ := run_spfsWriteFileExtent 0 0 (fun t b _ _ => hio t b) hsize hext hn hbuf
  refine ⟨_, _, _, w', hrun, ?_, hwrites.inodes, hwrites.bSize, ?_⟩
  · have hpos : 1 ≤ buf.length := List.length_pos_iff.mpr hbuf
    have hbig := w.le_bSize
    omega
  · have hall : min buf.length (n * w.bSize - (16 + 0)) = buf.length := by omega
    have hheader := hwrites.header
    rw [hall] at hheader
    have hgrown : ({ (FileExtent.linked ⟨0, n, 0⟩ 0).grow buf.length with
        next := ((FileExtent.linked ⟨0, n, 0⟩ 0).grow buf.length).next % 2 ^ 32 } : FileExtent) =
        ⟨0, n, buf.length⟩ := by
      simpa [FileExtent.linked, FileExtent.grow] using hlen
    rw [hgrown] at hheader
    exact hheader

/-! ## The whole call -/

/-- A new extent for `blocks` blocks. -/
theorem run_spfsFileExtentAlloc (hio : ∀ t s, env.ioOk t s = true) {blocks : ℕ}
    (hblocks : blocks < 2 ^ 32) (hs : (spfsFreeAlloc w.sbi.freeList blocks).1 = s) (hne : s ≠ 0) :
    ∃ w', (spfsFileExtentAlloc env blocks).run w = .ok s w' ∧
      OnlyLogs ((w.setFreeList (spfsFreeAlloc w.sbi.freeList blocks).2).setBlock s
        (withExtent ⟨0, blocks, 0⟩ (w.disk s))) w' := by
  set w₁ := (w.setFreeList (spfsFreeAlloc w.sbi.freeList blocks).2).addEvent (.alloc s blocks)
    with hw₁
  have halloc : (freeAlloc blocks).run w = .ok s w₁ := by
    rw [run_freeAlloc]
    simp only [hs, if_pos hne]
    rfl
  set w₂ := w₁.addEvent (.bread s true)
  have hread : (sbBread env s).run w₁ = .ok true w₂ :=
    run_sbBread_ok (hio _ _)
  have hmake : (makeBuf s 0 (spfsMakeFileExtent ⟨0, blocks, 0⟩)).run w₂ =
      .ok (0, 16) (w₂.setBlock s (withExtent ⟨0, blocks, 0⟩ (w.disk s))) := by
    rw [run_makeBuf, run_spfsMakeFileExtent _ w₂.le_bSize]
    rfl
  refine ⟨((w₂.setBlock s (withExtent ⟨0, blocks, 0⟩ (w.disk s))).addEvent (.dirty s)).addEvent
    (.brelse s), ?_, ⟨[.brelse s, .dirty s, .bread s true, .alloc s blocks], rfl⟩⟩
  rw [spfsFileExtentAlloc, EStateM.run_bind_of_ok halloc, if_pos hne,
    EStateM.run_bind_of_ok hread, Nat.mod_eq_of_lt hblocks]
  have hok : (bugOn (! true) : Kernel Unit).run w₂ = .ok () w₂ := rfl
  rw [EStateM.run_bind_of_ok hok, EStateM.run_bind_of_ok hmake]
  rfl

/-- No extent can be had. -/
theorem run_spfsFileExtentAlloc_none {blocks : ℕ}
    (hs : (spfsFreeAlloc w.sbi.freeList blocks).1 = 0) :
    (spfsFileExtentAlloc env blocks).run w =
      .ok 0 (w.setFreeList (spfsFreeAlloc w.sbi.freeList blocks).2) := by
  have halloc : (freeAlloc blocks).run w =
      .ok 0 (w.setFreeList (spfsFreeAlloc w.sbi.freeList blocks).2) := by
    rw [run_freeAlloc]
    simp only [hs, ne_eq, not_true_eq_false, if_false]
  rw [spfsFileExtentAlloc, EStateM.run_bind_of_ok halloc]
  rfl

/-- A regular file that nothing was written to. -/
structure EmptyFile (i : SpfsInode) : Prop where
  isReg : sIsReg i.iMode = true
  start : i.start = 0
  capacity : i.capacity = 0
  size : i.iSize = 0
  sb : i.iSb = .sb
  unlocked : i.lock = false

/-- Where and how large a file is gets to its record in every state that differs from `w`
in the log only. -/
def StoresStart (env : Env) (ino : ℕ) (w : World) : Prop :=
  ∀ ctx w₁, OnlyLogs w w₁ → ∃ ctx' w₂,
    (spfsBtreeModify env ino ctx spfsModifyStartCb).run w₁ = .ok (0, ctx') w₂

theorem StoresStart.of_onlyLogs {ino : ℕ} {w' : World} (h : StoresStart env ino w)
    (hlogs : OnlyLogs w w') : StoresStart env ino w' :=
  fun ctx w₁ hw₁ => h ctx w₁ (trans_of OnlyLogs hlogs hw₁)

/-- A walk that is given up at once stores nothing. -/
theorem StoresStart.fuel_ne {ino : ℕ} (h : StoresStart env ino w) : env.fuel ≠ 0 := by
  intro hfuel
  obtain ⟨ctx', w₂, hrun⟩ := h ⟨0, 0⟩ w (refl_of OnlyLogs w)
  rw [spfsBtreeModify, EStateM.run_bind_of_ok (EStateM.run_get w), hfuel] at hrun
  cases hstart : w.sbi.tree.start with
  | zero =>
    rw [hstart] at hrun
    cases hrun
  | succ start =>
    rw [hstart] at hrun
    cases hrun

/-- A record that was stored is not where an extent starts. -/
theorem spfsBtreeModify_start {ino : ℕ} {ctx ctx' : ModifyStart} {w' : World}
    (h : (spfsBtreeModify env ino ctx spfsModifyStartCb).run w = .ok (0, ctx') w')
    {e : FileExtent} (hext : ExtentAt (w.disk s) e) (hcapacity : e.capacity < 2 ^ 31) :
    w'.inodes = w.inodes ∧ w'.bSize = w.bSize ∧ w'.sbi = w.sbi ∧ w'.disk s = w.disk s := by
  obtain ⟨offset, _, _, t, cur, dirty, -, -, hcb, -, hlogs⟩ := spfsBtreeModify_zero h
  have hne : s ≠ offset := by
    rintro rfl
    rw [spfsModifyStartCb_extent hext hcapacity] at hcb
    cases hcb
  rw [hlogs.inodes, hlogs.bSize, hlogs.sbi, hlogs.disk]
  cases dirty with
  | false => exact ⟨rfl, rfl, rfl, rfl⟩
  | true => exact ⟨rfl, rfl, rfl, Function.update_of_ne hne _ _⟩

/-- The state after an empty file got its first extent, for a write of `len` bytes. -/
def withFirstExtent (w : World) (p : ℕ) (i : SpfsInode) (len : ℕ) : World :=
  let (s, fl) := spfsFreeAlloc w.sbi.freeList (firstBlocks w len)
  ((w.setFreeList fl).setBlock s (withExtent ⟨0, firstBlocks w len, 0⟩ (w.disk s))).setInode p
    { i with start := s, capacity := firstBlocks w len * w.bSize - 16 }

theorem withFirstExtent_onlyLogs (w : World) (p : ℕ) (i j : SpfsInode) (e : Event) (len : ℕ) :
    OnlyLogs (withFirstExtent w p i len) (withFirstExtent ((w.setInode p j).addEvent e) p i len) :=
  ⟨[e], by
    simp [withFirstExtent, firstBlocks, World.setInode, World.setFreeList, World.setBlock,
      World.addEvent]⟩

theorem run_spfsEnsureCapacity (hio : ∀ t s, env.ioOk t s = true)
    (hsize : w.sbi.blockSize = w.bSize) {p len : ℕ} {i : SpfsInode} (hp : w.inodes p = some i)
    (hsb : i.iSb = .sb) (hstart : i.start = 0) (hcapacity : i.capacity = 0) (hlen : 1 ≤ len)
    (hmax : len ≤ maxRwCount) (hs : (spfsFreeAlloc w.sbi.freeList (firstBlocks w len)).1 = s) (hne : s ≠ 0)
    (hstores : StoresStart env i.iIno (withFirstExtent w p i len)) :
    ∃ w', (spfsEnsureCapacity env p 0 len).run w = .ok (0, 0) w' ∧
      w'.inodes p = some { i with
        start := s, capacity := firstBlocks w len * w.bSize - 16 } ∧
      w'.bSize = w.bSize ∧ w'.sbi.blockSize = w.bSize ∧
      ExtentAt (w'.disk s) ⟨0, firstBlocks w len, 0⟩ := by
  obtain ⟨hpos, hfew, hroom, hfits⟩ := firstBlocks_bounds w hlen hmax
  set n := firstBlocks w len with hn
  obtain ⟨w₁, halloc, hlogs⟩ := run_spfsFileExtentAlloc hio (by omega) hs hne
  have hp₁ : w₁.inodes p = some i := by
    rw [hlogs.inodes]
    exact hp
  set i₂ := { i with start := s } with hi₂
  set i₃ := { i₂ with capacity := n * w.bSize - 16 }
  have hbytes : (spfsFileExtentDataBytes w.sbi n).run (w₁.setInode p i₂) =
      .ok (n * w.bSize - 16) (w₁.setInode p i₂) := by
    have hnone : (bugOn (n = 0) : Kernel Unit).run (w₁.setInode p i₂) =
        .ok () (w₁.setInode p i₂) := by
      rw [run_bugOn, if_neg (by omega)]
    have hval : (n * w.bSize % 2 ^ 64 + 2 ^ 64 - 16) % 2 ^ 64 = n * w.bSize - 16 := by omega
    rw [spfsFileExtentDataBytes, EStateM.run_bind_of_ok hnone, hsize, spfsSizeofFileExtentHeader]
    exact congrArg (fun b => EStateM.Result.ok b (w₁.setInode p i₂)) hval
  have hfirst : OnlyLogs (withFirstExtent w p i len) (w₁.setInode p i₃) := by
    have hset := hlogs.setInode p i₃
    rw [withFirstExtent]
    simp only [← hn, hs]
    exact hset
  obtain ⟨ctx', w₄, hmodify⟩ := hstores ⟨s, n * w.bSize - 16⟩ _ hfirst
  have hext : ExtentAt ((w₁.setInode p i₃).disk s) ⟨0, n, 0⟩ := by
    rw [World.setInode_disk, hlogs.disk, World.setBlock_disk, Function.update_self]
    exact extentAt_withExtent _ (Nat.two_pow_pos 32) (by simp only; omega) (Nat.two_pow_pos 32)
  obtain ⟨hinodes, hbsize, hsbi, hdisk⟩ := spfsBtreeModify_start hmodify hext (by simpa using hfew)
  refine ⟨w₄, ?_, ?_, ?_, ?_, ?_⟩
  · rw [spfsEnsureCapacity, EStateM.run_bind_of_ok (run_getInode_of hp),
      EStateM.run_bind_of_ok (run_followSb hsb w)]
    simp only [hsize, hcapacity, hstart, spfsCalcExtraBlocks_first w hlen hmax, ← hn, if_true]
    rw [if_neg (by omega), EStateM.run_bind_of_ok halloc, if_neg hne,
      EStateM.run_bind_of_ok (run_modifyInode_of hp₁), EStateM.run_bind_of_ok hbytes]
    have hp₂ : (w₁.setInode p i₂).inodes p = some i₂ := Function.update_self _ _ _
    have hgrown : { i₂ with capacity := (i₂.capacity + (n * w.bSize - 16)) % 2 ^ 32 } = i₃ := by
      have hval : (i₂.capacity + (n * w.bSize - 16)) % 2 ^ 32 = n * w.bSize - 16 := by
        simp only [hi₂, hcapacity]
        omega
      rw [hval]
    rw [EStateM.run_bind_of_ok (run_modifyInode_of hp₂), hgrown, World.setInode_setInode]
    have hp₃ : (w₁.setInode p i₃).inodes p = some i₃ := Function.update_self _ _ _
    rw [EStateM.run_bind_of_ok (run_getInode_of hp₃), EStateM.run_bind_of_ok hmodify]
    rfl
  · rw [hinodes]
    exact Function.update_self _ _ _
  · rw [hbsize]
    exact hlogs.bSize
  · rw [hsbi, World.setInode_sbi, hlogs.sbi]
    exact hsize
  · rw [hdisk]
    exact hext

/-- The first write to a file stores all bytes in a new extent, and fails. -/
theorem run_spfsWrite_first (hio : ∀ t s, env.ioOk t s = true)
    (hsize : w.sbi.blockSize = w.bSize) {p : ℕ} {i : SpfsInode} (hp : w.inodes p = some i)
    (hi : EmptyFile i) {buf : List UInt8} (hbuf : buf ≠ []) (hmax : buf.length ≤ maxRwCount)
    (hs : (spfsFreeAlloc w.sbi.freeList (firstBlocks w buf.length)).1 = s) (hne : s ≠ 0)
    (hstores : StoresStart env i.iIno (withFirstExtent w p { i with lock := true } buf.length))
    (pos : ℕ) :
    ∃ w', (spfsWrite env p buf pos).run w = .ok (- EIO, 0) w' ∧
      w'.inodes p = some { i with
        lock := true, start := s, capacity := firstBlocks w buf.length * w.bSize - 16 } ∧
      w'.bSize = w.bSize ∧
      ExtentAt (w'.disk s) ⟨0, firstBlocks w buf.length, buf.length⟩ := by
  have hlen : 1 ≤ buf.length := List.length_pos_iff.mpr hbuf
  obtain ⟨hpos, hfew, hroom, -⟩ := firstBlocks_bounds w hlen hmax
  set w₁ := (w.setInode p { i with lock := true }).addEvent (.lock p)
  have hp₁ : w₁.inodes p = some { i with lock := true } := Function.update_self _ _ _
  have hstores₁ : StoresStart env i.iIno
      (withFirstExtent w₁ p { i with lock := true } buf.length) :=
    hstores.of_onlyLogs (withFirstExtent_onlyLogs w p _ _ _ _)
  obtain ⟨w₂, hensure, hp₂, hbsize₂, hsize₂, hext₂⟩ := run_spfsEnsureCapacity (w := w₁) hio hsize
    hp₁ hi.sb hi.start hi.capacity hlen hmax hs hne hstores₁
  have hblocks : firstBlocks w₁ buf.length = firstBlocks w buf.length := rfl
  have hbsize : w₁.bSize = w.bSize := rfl
  rw [hblocks, hbsize] at hp₂
  rw [hblocks] at hext₂
  rw [hbsize] at hbsize₂ hsize₂
  obtain ⟨res, header, rest, w₃, hwrite, hres, hinodes₃, hbsize₃, hext₃⟩ :=
    run_spfsWriteFileExtent_first hio (hsize₂.trans hbsize₂.symm) hpos hext₂ hbuf
      (by rw [hbsize₂]; exact hroom) (by rw [maxRwCount] at hmax; omega)
  refine ⟨w₃, ?_, hinodes₃.symm ▸ hp₂, hbsize₃.trans hbsize₂, hext₃⟩
  have hclamp : (if pos > i.iSize then i.iSize else pos) = 0 := by
    rw [hi.size]
    split <;> omega
  obtain ⟨fuel, hfuel⟩ := Nat.exists_eq_succ_of_ne_zero hstores.fuel_ne
  have hlit : (spfsWriteLit env env.fuel s ⟨buf, 0⟩ 0 0).run w₂ = .ok (.error (- EIO)) w₃ := by
    rw [hfuel, spfsWriteLit]
    case x_5 => exact hne
    rw [EStateM.run_bind_of_ok hwrite]
    dsimp only
    rw [if_pos hres]
    rfl
  rw [spfsWrite, if_neg (by omega), EStateM.run_bind_of_ok (run_getInode_of hp),
    if_neg (by simp [hi.isReg]),
    EStateM.run_bind_of_ok (run_mutexLockInterruptible_of hp hi.unlocked)]
  dsimp only
  rw [if_neg Bool.false_ne_true, hclamp, EStateM.run_bind_of_ok hensure]
  dsimp only
  rw [if_neg (not_not.mpr rfl), EStateM.run_bind_of_ok (run_getInode_of hp₂),
    EStateM.run_bind_of_ok hlit]
  rfl

/-- A write to an empty file for which there is no space leaves the file empty. It fails
and keeps the lock. -/
theorem run_spfsWrite_noSpace (env : Env) (hsize : w.sbi.blockSize = w.bSize) {p : ℕ} {i : SpfsInode}
    (hp : w.inodes p = some i) (hi : EmptyFile i) {buf : List UInt8} (hbuf : buf ≠ [])
    (hmax : buf.length ≤ maxRwCount)
    (hs : (spfsFreeAlloc w.sbi.freeList (firstBlocks w buf.length)).1 = 0) (pos : ℕ) :
    ∃ w', (spfsWrite env p buf pos).run w = .ok (- EIO, 0) w' ∧
      w'.inodes p = some { i with lock := true } ∧ w'.bSize = w.bSize := by
  have hlen : 1 ≤ buf.length := List.length_pos_iff.mpr hbuf
  obtain ⟨hpos, -⟩ := firstBlocks_bounds w hlen hmax
  set w₁ := (w.setInode p { i with lock := true }).addEvent (.lock p)
  have hp₁ : w₁.inodes p = some { i with lock := true } := Function.update_self _ _ _
  have halloc : (spfsFileExtentAlloc env (firstBlocks w buf.length)).run w₁ = .ok 0
      (w₁.setFreeList (spfsFreeAlloc w₁.sbi.freeList (firstBlocks w buf.length)).2) :=
    run_spfsFileExtentAlloc_none hs
  have hensure : (spfsEnsureCapacity env p 0 buf.length).run w₁ = .ok (- EIO, 0)
      (w₁.setFreeList (spfsFreeAlloc w₁.sbi.freeList (firstBlocks w buf.length)).2) := by
    have hsize₁ : w₁.sbi.blockSize = w.bSize := hsize
    have hsb : SpfsInode.iSb { i with lock := true } = .sb := hi.sb
    rw [spfsEnsureCapacity, EStateM.run_bind_of_ok (run_getInode_of hp₁),
      EStateM.run_bind_of_ok (run_followSb hsb w₁)]
    simp only [hsize₁, hi.capacity, spfsCalcExtraBlocks_first w hlen hmax]
    rw [if_neg (by omega), EStateM.run_bind_of_ok halloc]
    rfl
  have hclamp : (if pos > i.iSize then i.iSize else pos) = 0 := by
    rw [hi.size]
    split <;> omega
  refine ⟨w₁.setFreeList (spfsFreeAlloc w₁.sbi.freeList (firstBlocks w buf.length)).2, ?_, hp₁, rfl⟩
  rw [spfsWrite, if_neg (by omega), EStateM.run_bind_of_ok (run_getInode_of hp),
    if_neg (by simp [hi.isReg]),
    EStateM.run_bind_of_ok (run_mutexLockInterruptible_of hp hi.unlocked)]
  dsimp only
  rw [if_neg Bool.false_ne_true, hclamp, EStateM.run_bind_of_ok hensure]
  rfl

/-- A write to a file whose lock is held does nothing. -/
theorem run_spfsWrite_held {p : ℕ} {i : SpfsInode} (hp : w.inodes p = some i)
    (hreg : sIsReg i.iMode = true) (hlock : i.lock = true) (buf : List UInt8) (pos : ℕ) :
    ((spfsWrite env p buf pos).run w).final = w := by
  rw [spfsWrite]
  by_cases hlen : buf.length = 0
  · rw [if_pos hlen]
    rfl
  rw [if_neg hlen, EStateM.run_bind_of_ok (run_getInode_of hp), if_neg (by simp [hreg])]
  have hheld : (mutexLockInterruptible env p).run w =
      if env.signal w.time then .ok true w else .error .blocked w :=
    run_mutexLockInterruptible_held hp hlock
  by_cases hsignal : env.signal w.time
  · rw [if_pos hsignal] at hheld
    rw [EStateM.run_bind_of_ok hheld]
    rfl
  · rw [if_neg hsignal] at hheld
    rw [EStateM.run_bind_of_error hheld]
    rfl

end Run

/-! ## A file whose record is found -/

/-- A search that hits the record of a regular file stores where the file starts. -/
theorem storesStart_of_hit {env : Env} {w : World} {ino offset : ℕ}
    (hio : ∀ t s, env.ioOk t s = true) (hfuel : env.fuel ≠ 0) (h : HitsRecord w ino offset)
    (hreg : sIsReg (beDecode ((w.disk offset).read 8 2)) = true) : StoresStart env ino w := by
  rintro ctx _ ⟨es, rfl⟩
  have hhits : HitsRecord { w with log := es ++ w.log } ino offset := h.congr rfl rfl rfl h.magic
  refine spfsBtreeModify_of_hit hio hfuel hhits fun junk => ?_
  have hcb : spfsModifyStartCb ctx (parsedInode junk (w.disk offset)) =
      .ok (ctx, { parsedInode junk (w.disk offset) with
        start := ctx.start, capacity := ctx.capacity % 2 ^ 32 }, true) := by
    rw [spfsModifyStartCb]
    simp [parsedInode, hreg]
  exact ⟨_, _, _, hcb⟩

theorem emptyFile_plainFile (ino : ℕ) : EmptyFile (plainFile ino) :=
  ⟨by simp [plainFile, sIsReg], rfl, rfl, rfl, rfl, rfl⟩

theorem firstBlocks_oneFileWorld : firstBlocks oneFileWorld 1 = 1 := by
  simp [firstBlocks, spfsBlocksFor, oneFileWorld, freshWorld]

theorem storesStart_oneFileWorld (i : SpfsInode) :
    StoresStart (.calm 9) 1 (withFirstExtent oneFileWorld 1 i 1) := by
  have halloc : spfsFreeAlloc oneFileWorld.sbi.freeList 1 = (101, ⟨91, [⟨10, 91⟩]⟩) := by decide
  have hdisk {s : ℕ} (hs : s ≠ 101) :
      (withFirstExtent oneFileWorld 1 i 1).disk s = oneFileWorld.disk s := by
    simp only [withFirstExtent, firstBlocks_oneFileWorld, halloc]
    exact Function.update_of_ne hs _ _
  have hnode : (withFirstExtent oneFileWorld 1 i 1).disk 7 = oneFileWorld.disk 7 :=
    hdisk (by decide)
  have hrecord : (withFirstExtent oneFileWorld 1 i 1).disk 8 = oneFileWorld.disk 8 :=
    hdisk (by decide)
  have hhits : HitsRecord (withFirstExtent oneFileWorld 1 i 1) 1 8 :=
    hitsRecord_oneFileWorld.congr rfl rfl hnode (by rw [hrecord]; exact recordMagic_withRecord _ _ _)
  refine storesStart_of_hit (fun _ _ => rfl) (Nat.succ_ne_zero 8) hhits ?_
  rw [hrecord]
  decide

end Spfs
