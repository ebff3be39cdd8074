-- SUMMARY: fsck.spfs.c: the checks of the super block and of the free list, and the chains that fsck accepts.
import Spfs.FreeList.Format
import Spfs.Wire

/-!
# fsck

`fsck` reads the fields one after the other from the file. It looks for a block of
the free list at the 32-bit product of its number and the block size, and it reads
a table up to the end of the file.
-/

namespace Spfs

/-- `none` where the source does not return 0. -/
def fsckReadU32 : User (Option ℕ) := do
  let len := 4
  let l ← read len
  if len - l.length ≠ 0 then
    return none
  return some (beDecode l)

/-- `read_super_block`: the fields that the program reads, over those that the
structure had. -/
def readSuperBlock (super : SuperBlockWire) : User (Option SuperBlockWire) := do
  lseekSet 0
  let some magic ← fsckReadU32 | return none
  let some version ← fsckReadU32 | return none
  let some blockSize ← fsckReadU32 | return none
  let some id ← fsckReadU32 | return none
  let some rootId ← fsckReadU32 | return none
  let some btreeOffset ← fsckReadU32 | return none
  let some freeListOffset ← fsckReadU32 | return none
  return some { super with
    magic := magic, version := version, blockSize := blockSize, id := id, rootId := rootId,
    btreeOffset := btreeOffset, freeListOffset := freeListOffset }

def fsckSuperBlock (super : SuperBlockWire) : ℤ :=
  if super.magic ≠ spookyFsSuperMagic then 1
  else if super.blockSize < spookyFsInitialBlockSize then 1
  else if super.blockSize % spookyFsInitialBlockSize ≠ 0 then 1
  else 0

def readFreeListHeader : User (Option FreeListHeader) := do
  let some magic ← fsckReadU32 | return none
  let some entries ← fsckReadU32 | return none
  let some next ← fsckReadU32 | return none
  return some ⟨magic, entries, next⟩

def readFreeEntry : User (Option FreeNode) := do
  let some start ← fsckReadU32 | return none
  let some blocks ← fsckReadU32 | return none
  return some ⟨start, blocks⟩

def printFreeEntry (entry : FreeNode) : User Unit :=
  modify (·.print entry)

@[simp] theorem run_printFreeEntry (entry : FreeNode) (fd : OpenFile) :
    (printFreeEntry entry).run fd = .ok () (fd.print entry) := rfl

/-- The `for` loop over the entries still to be read; `false` when one of them could
not be read. -/
def fsckFreeEntries : ℕ → User Bool
  | 0 => return true
  | n + 1 => do
    let some entry ← readFreeEntry | return false
    printFreeEntry entry
    fsckFreeEntries n

/-- The `do` loop. The product of two 32-bit numbers is a 32-bit number, and so
`lseek` is never given a negative position. -/
def fsckFreeListDo (blockSize : ℕ) : ℕ → ℕ → User ℤ
  | 0, _ => throw .fuel
  | fuel + 1, freeList => do
    let pos := freeList * blockSize % 2 ^ 32
    lseekSet pos
    let some header ← readFreeListHeader | return 1
    if header.magic ≠ spookyFsFlMagic then
      return 1
    if !(← fsckFreeEntries header.entries) then
      return 1
    if header.next ≠ 0 then
      fsckFreeListDo blockSize fuel header.next
    else
      return 0

def fsckFreeList (fuel : ℕ) (super : SuperBlockWire) : User ℤ :=
  fsckFreeListDo super.blockSize fuel super.freeListOffset

/-- `main` from the open file on: the exit code. The structure on the stack is `super` at first. -/
def fsckMain (fuel : ℕ) (super : SuperBlockWire) : User ℤ := do
  let some super ← readSuperBlock super | return 1
  if fsckSuperBlock super ≠ 0 then
    return 1
  if (← fsckFreeList fuel super) ≠ 0 then
    return 1
  return 0

theorem fsckSuperBlock_eq_zero {super : SuperBlockWire} :
    fsckSuperBlock super = 0 ↔ super.magic = spookyFsSuperMagic ∧
      spookyFsInitialBlockSize ≤ super.blockSize ∧ spookyFsInitialBlockSize ∣ super.blockSize := by
  have hone : (1 : ℤ) ≠ 0 := by decide
  rw [fsckSuperBlock, Nat.dvd_iff_mod_eq_zero]
  split
  · exact iff_of_false hone fun h => absurd h.1 ‹_›
  split
  · exact iff_of_false hone fun h => absurd h.2.1 (Nat.not_le.mpr ‹_›)
  split
  · exact iff_of_false hone fun h => absurd h.2.2 ‹_›
  · exact iff_of_true rfl ⟨not_not.mp ‹_›, Nat.not_lt.mp ‹_›, not_not.mp ‹_›⟩

/-! ## Reading fields -/

/-- The super block that the bytes of a device describe. -/
def wireSuper (super : SuperBlockWire) (data : Block) : SuperBlockWire :=
  { super with
    magic := beDecode (data.read 0 4)
    version := beDecode (data.read 4 4)
    blockSize := beDecode (data.read 8 4)
    id := beDecode (data.read 12 4)
    rootId := beDecode (data.read 16 4)
    btreeOffset := beDecode (data.read 20 4)
    freeListOffset := beDecode (data.read 24 4) }

/-- The two structures hold the same super block. -/
def SuperBlockWire.Describes (super : SuperBlockWire) (sbi : SuperBlock) : Prop :=
  super.magic = sbi.magic ∧ super.version = sbi.version ∧ super.blockSize = sbi.blockSize ∧
    super.id = sbi.id ∧ super.rootId = sbi.rootId ∧ super.btreeOffset = sbi.btreeOffset ∧
    super.freeListOffset = sbi.freeListOffset

section Reads

variable {fd fd' : OpenFile} {super super' : SuperBlockWire}

theorem run_fsckReadU32 (fd : OpenFile) (h : fd.pos + 4 ≤ fd.size) :
    fsckReadU32.run fd = .ok (some (beDecode (fd.data.read fd.pos 4))) (fd.seek (fd.pos + 4)) := by
  rw [fsckReadU32, EStateM.run_bind_of_ok (run_read h), Block.length_read]
  rfl

theorem run_fsckReadU32_short (fd : OpenFile) (h : fd.size < fd.pos + 4) :
    ∃ pos, fsckReadU32.run fd = .ok none (fd.seek pos) := by
  obtain ⟨l, pos, hl, hrun⟩ := run_read_short h (by decide)
  refine ⟨pos, ?_⟩
  rw [fsckReadU32, EStateM.run_bind_of_ok hrun, if_pos (by omega)]
  rfl

/-- A field that was read lies in the file. -/
theorem fsckReadU32_eq_some {n : ℕ} (h : fsckReadU32.run fd = .ok (some n) fd') :
    fd.pos + 4 ≤ fd.size ∧ fd' = fd.seek (fd.pos + 4) := by
  rcases Nat.lt_or_ge fd.size (fd.pos + 4) with hshort | hin
  · obtain ⟨pos, hrun⟩ := run_fsckReadU32_short fd hshort
    rw [hrun] at h
    cases h
  · rw [run_fsckReadU32 fd hin] at h
    cases h
    exact ⟨hin, rfl⟩

theorem run_readFreeEntry (h : fd.pos + 8 ≤ fd.size) :
    readFreeEntry.run fd = .ok (some (freeEntryAt fd.data fd.pos)) (fd.seek (fd.pos + 8)) := by
  have h₁ := run_fsckReadU32 fd (by omega)
  have h₂ := run_fsckReadU32 (fd.seek (fd.pos + 4)) (by simp; omega)
  rw [readFreeEntry, EStateM.run_bind_of_ok h₁]
  dsimp only
  rw [EStateM.run_bind_of_ok h₂]
  rfl

theorem run_readFreeEntry_short (h : fd.size < fd.pos + 8) :
    ∃ pos, readFreeEntry.run fd = .ok none (fd.seek pos) := by
  rcases Nat.lt_or_ge fd.size (fd.pos + 4) with h₁ | h₁
  · obtain ⟨pos, hrun⟩ := run_fsckReadU32_short fd h₁
    exact ⟨pos, by rw [readFreeEntry, EStateM.run_bind_of_ok hrun]; rfl⟩
  · obtain ⟨pos, hrun⟩ := run_fsckReadU32_short (fd.seek (fd.pos + 4)) h
    refine ⟨pos, ?_⟩
    rw [readFreeEntry, EStateM.run_bind_of_ok (run_fsckReadU32 fd h₁)]
    dsimp only
    rw [EStateM.run_bind_of_ok hrun]
    rfl

theorem run_readFreeListHeader (h : fd.pos + 12 ≤ fd.size) :
    readFreeListHeader.run fd = .ok (some (headerAt fd.data fd.pos)) (fd.seek (fd.pos + 12)) := by
  have h₁ := run_fsckReadU32 fd (by omega)
  have h₂ := run_fsckReadU32 (fd.seek (fd.pos + 4)) (by simp; omega)
  have h₃ := run_fsckReadU32 (fd.seek (fd.pos + 8)) (by simp; omega)
  rw [readFreeListHeader, EStateM.run_bind_of_ok h₁]
  dsimp only
  rw [EStateM.run_bind_of_ok h₂]
  dsimp only [OpenFile.seek_pos, OpenFile.seek_data, OpenFile.seek_seek]
  rw [EStateM.run_bind_of_ok h₃]
  rfl

theorem run_readFreeListHeader_short (fd : OpenFile) (h : fd.size < fd.pos + 12) :
    ∃ pos, readFreeListHeader.run fd = .ok none (fd.seek pos) := by
  rcases Nat.lt_or_ge fd.size (fd.pos + 4) with h₁ | h₁
  · obtain ⟨pos, hrun⟩ := run_fsckReadU32_short fd h₁
    exact ⟨pos, by rw [readFreeListHeader, EStateM.run_bind_of_ok hrun]; rfl⟩
  rcases Nat.lt_or_ge fd.size (fd.pos + 8) with h₂ | h₂
  · obtain ⟨pos, hrun⟩ := run_fsckReadU32_short (fd.seek (fd.pos + 4)) h₂
    refine ⟨pos, ?_⟩
    rw [readFreeListHeader, EStateM.run_bind_of_ok (run_fsckReadU32 fd h₁)]
    dsimp only
    rw [EStateM.run_bind_of_ok hrun]
    rfl
  · have h₂' := run_fsckReadU32 (fd.seek (fd.pos + 4)) h₂
    obtain ⟨pos, hrun⟩ := run_fsckReadU32_short (fd.seek (fd.pos + 8)) h
    refine ⟨pos, ?_⟩
    rw [readFreeListHeader, EStateM.run_bind_of_ok (run_fsckReadU32 fd h₁)]
    dsimp only
    rw [EStateM.run_bind_of_ok h₂']
    dsimp only [OpenFile.seek_pos, OpenFile.seek_seek]
    rw [EStateM.run_bind_of_ok hrun]
    rfl

theorem run_readSuperBlock (h : 28 ≤ fd.size) :
    (readSuperBlock super).run fd = .ok (some (wireSuper super fd.data)) (fd.seek 28) := by
  have hread : ∀ pos, pos + 4 ≤ 28 → fsckReadU32.run (fd.seek pos) =
      .ok (some (beDecode (fd.data.read pos 4))) (fd.seek (pos + 4)) :=
    fun pos hpos => run_fsckReadU32 (fd.seek pos) (by simp; omega)
  simp (disch := omega) only [readSuperBlock, EStateM.run_bind_match, run_lseekSet, hread,
    Nat.reduceAdd, Nat.zero_add]
  rfl

/-- A super block that was read lies in the file. -/
theorem readSuperBlock_eq_some (h : (readSuperBlock super).run fd = .ok (some super') fd') :
    super' = wireSuper super fd.data ∧ fd' = fd.seek 28 := by
  have hsize : 28 ≤ fd.size := by
    rw [readSuperBlock, EStateM.run_bind_of_ok (run_lseekSet _ _)] at h
    obtain ⟨_ | n₁, fd₁, h₁, h⟩ := EStateM.run_bind_eq_ok.mp h
    · cases h
    obtain ⟨_ | n₂, fd₂, h₂, h⟩ := EStateM.run_bind_eq_ok.mp h
    · cases h
    obtain ⟨_ | n₃, fd₃, h₃, h⟩ := EStateM.run_bind_eq_ok.mp h
    · cases h
    obtain ⟨_ | n₄, fd₄, h₄, h⟩ := EStateM.run_bind_eq_ok.mp h
    · cases h
    obtain ⟨_ | n₅, fd₅, h₅, h⟩ := EStateM.run_bind_eq_ok.mp h
    · cases h
    obtain ⟨_ | n₆, fd₆, h₆, h⟩ := EStateM.run_bind_eq_ok.mp h
    · cases h
    obtain ⟨_ | n₇, fd₇, h₇, h⟩ := EStateM.run_bind_eq_ok.mp h
    · cases h
    obtain ⟨-, rfl⟩ := fsckReadU32_eq_some h₁
    obtain ⟨-, rfl⟩ := fsckReadU32_eq_some h₂
    obtain ⟨-, rfl⟩ := fsckReadU32_eq_some h₃
    obtain ⟨-, rfl⟩ := fsckReadU32_eq_some h₄
    obtain ⟨-, rfl⟩ := fsckReadU32_eq_some h₅
    obtain ⟨-, rfl⟩ := fsckReadU32_eq_some h₆
    exact (fsckReadU32_eq_some h₇).1
  rw [run_readSuperBlock hsize] at h
  cases h
  exact ⟨rfl, rfl⟩

/-- The entries of a table that ends inside the file are printed. -/
theorem run_fsckFreeEntries (fd : OpenFile) (n : ℕ) (h : fd.pos + 8 * n ≤ fd.size) :
    ∃ fd', (fsckFreeEntries n).run fd = .ok true fd' ∧ fd'.data = fd.data ∧ fd'.size = fd.size ∧
      fd'.printed = (entriesAt fd.data fd.pos n).reverse ++ fd.printed := by
  induction n generalizing fd with
  | zero => exact ⟨fd, rfl, rfl, rfl, rfl⟩
  | succ n ih =>
    let fd₁ := (fd.seek (fd.pos + 8)).print (freeEntryAt fd.data fd.pos)
    obtain ⟨fd', hrun, hdata, hsize, hprinted⟩ := @ih fd₁ (by
      show fd.pos + 8 + 8 * n ≤ fd.size
      omega)
    refine ⟨fd', ?_, hdata, hsize, ?_⟩
    · rw [fsckFreeEntries, EStateM.run_bind_of_ok (run_readFreeEntry (by omega))]
      exact hrun
    · rw [hprinted]
      simp [entriesAt, fd₁]

theorem run_fsckFreeEntries_short (fd : OpenFile) (n : ℕ) (hpos : fd.pos ≤ fd.size)
    (h : fd.size < fd.pos + 8 * n) : ∃ fd', (fsckFreeEntries n).run fd = .ok false fd' := by
  induction n generalizing fd with
  | zero => omega
  | succ n ih =>
    rw [fsckFreeEntries]
    rcases Nat.lt_or_ge fd.size (fd.pos + 8) with h₁ | h₁
    · obtain ⟨pos, hrun⟩ := run_readFreeEntry_short h₁
      rw [EStateM.run_bind_of_ok hrun]
      exact ⟨_, rfl⟩
    · rw [EStateM.run_bind_of_ok (run_readFreeEntry h₁)]
      refine @ih ((fd.seek (fd.pos + 8)).print _) h₁ ?_
      show fd.size < fd.pos + 8 + 8 * n
      omega

end Reads

/-! ## The chains that fsck accepts -/

/-- The view of fsck: blocks at 32-bit products, read up to the end of the file. -/
def fsckView (bs size : ℕ) (data : Block) : FreeListView where
  data := data
  addr s := s * bs % 2 ^ 32
  limit _ := size

section Chains

variable {fd fd' : OpenFile} {bs : ℕ}

theorem fsckFreeListDo_bad (fuel : ℕ) {s : ℕ} (hbad : ¬ (fsckView bs fd.size fd.data).Good s) :
    ∃ fd', (fsckFreeListDo bs (fuel + 1) s).run fd = .ok 1 fd' := by
  let pos := s * bs % 2 ^ 32
  rw [fsckFreeListDo, EStateM.run_bind_of_ok (run_lseekSet _ _)]
  rcases Nat.lt_or_ge fd.size (pos + 12) with hshort | hin
  · obtain ⟨pos', hrun⟩ := run_readFreeListHeader_short (fd.seek pos) hshort
    rw [EStateM.run_bind_of_ok hrun]
    exact ⟨_, rfl⟩
  have hheader : readFreeListHeader.run (fd.seek pos) =
      .ok (some (headerAt fd.data pos)) (fd.seek (pos + 12)) := run_readFreeListHeader hin
  rw [EStateM.run_bind_of_ok hheader]
  dsimp only
  by_cases hmagic : (headerAt fd.data pos).magic = spookyFsFlMagic
  · have hshort : fd.size < pos + 12 + 8 * (headerAt fd.data pos).entries :=
      Nat.lt_of_not_le fun h => hbad ⟨hmagic, h⟩
    obtain ⟨fd', hrun⟩ := run_fsckFreeEntries_short (fd.seek (pos + 12)) _ hin hshort
    rw [if_neg (not_not.mpr hmagic)]
    exact ⟨fd', EStateM.run_check_of_false hrun⟩
  · rw [if_pos hmagic]
    exact ⟨_, rfl⟩

theorem fsckFreeListDo_good {s : ℕ} (hgood : (fsckView bs fd.size fd.data).Good s) :
    ∃ fd', fd'.data = fd.data ∧ fd'.size = fd.size ∧
      fd'.printed = ((fsckView bs fd.size fd.data).table s).reverse ++ fd.printed ∧
      ∀ fuel, (fsckFreeListDo bs (fuel + 1) s).run fd =
        if ((fsckView bs fd.size fd.data).header s).next ≠ 0 then
          (fsckFreeListDo bs fuel ((fsckView bs fd.size fd.data).header s).next).run fd'
        else .ok 0 fd' := by
  let pos := s * bs % 2 ^ 32
  have hin : pos + 12 ≤ fd.size := Nat.le_of_add_right_le hgood.2
  obtain ⟨fd', hrun, hdata, hsize, hprinted⟩ := run_fsckFreeEntries (fd.seek (pos + 12)) _
    hgood.2
  have hheader : readFreeListHeader.run (fd.seek pos) =
      .ok (some ((fsckView bs fd.size fd.data).header s)) (fd.seek (pos + 12)) :=
    run_readFreeListHeader hin
  refine ⟨fd', hdata, hsize, hprinted, fun fuel => ?_⟩
  rw [fsckFreeListDo, EStateM.run_bind_of_ok (run_lseekSet _ _), EStateM.run_bind_of_ok hheader]
  dsimp only
  rw [if_neg (not_not.mpr hgood.1), EStateM.run_check_of_true hrun, EStateM.run_ite]
  rfl

/-- What `fsck_free_list` has found when it returns: a well formed chain, whose
entries it printed, or a broken one. -/
theorem fsckFreeListDo_loads {fuel s : ℕ} {res : ℤ}
    (h : (fsckFreeListDo bs fuel s).run fd = .ok res fd') :
    (res = 0 ∧ ∃ es, (fsckView bs fd.size fd.data).WellFormed s es ∧
      fd'.printed = es.reverse ++ fd.printed) ∨
      (res ≠ 0 ∧ (fsckView bs fd.size fd.data).Broken s) := by
  induction fuel generalizing s fd with
  | zero => cases h
  | succ fuel ih =>
    by_cases hgood : (fsckView bs fd.size fd.data).Good s
    · obtain ⟨fd₁, hdata, hsize, hprinted, hrun⟩ := fsckFreeListDo_good hgood
      rw [hrun] at h
      by_cases hnext : ((fsckView bs fd.size fd.data).header s).next = 0
      · rw [if_neg (not_not.mpr hnext)] at h
        cases h
        exact .inl ⟨rfl, _, .last hgood hnext, hprinted⟩
      · rw [if_pos hnext] at h
        have hrest := ih h
        rw [hdata, hsize, hprinted] at hrest
        obtain ⟨rfl, es, hwell, heq⟩ | ⟨hres, hbroken⟩ := hrest
        · exact .inl ⟨rfl, _, .next hgood hnext hwell, by rw [heq]; simp⟩
        · exact .inr ⟨hres, .next hgood hnext hbroken⟩
    · obtain ⟨fd₁, hrun⟩ := fsckFreeListDo_bad fuel hgood
      rw [hrun] at h
      cases h
      exact .inr ⟨by decide, .bad hgood⟩

theorem fsckFreeListDo_returns {v : FreeListView} {s n : ℕ} (h : v.EndsWithin n s)
    (hv : v = fsckView bs fd.size fd.data) :
    ∃ res fd', (fsckFreeListDo bs n s).run fd = .ok res fd' := by
  induction h generalizing fd with
  | @bad s n hbad =>
    subst hv
    obtain ⟨fd', hrun⟩ := fsckFreeListDo_bad n hbad
    exact ⟨1, fd', hrun⟩
  | @last s n hgood hnext =>
    subst hv
    obtain ⟨fd', -, -, -, hrun⟩ := fsckFreeListDo_good hgood
    rw [hrun, if_neg (not_not.mpr hnext)]
    exact ⟨0, fd', rfl⟩
  | @next s n hgood hne _ ih =>
    subst hv
    obtain ⟨fd', hdata, hsize, -, hrun⟩ := fsckFreeListDo_good hgood
    rw [hrun, if_pos hne]
    exact ih (by rw [hdata, hsize])

end Chains

end Spfs
