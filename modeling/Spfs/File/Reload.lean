-- SUMMARY: What the first write to a file leaves on the device, and that a reload of the inode reads it.
import Spfs.Btree.InsertFailure
import Spfs.File.Content
import Spfs.File.WriteFailure
import Spfs.Inode.WriteBack
import Spfs.Vfs.Reading

/-!
# Reloaded files

The first write to a file fails, and keeps the lock: no read of the file returns any more.
The bytes are on the device nevertheless, and the record says where. When the object is
dropped and loaded again, or the device is mounted again, reads show them (`firstWrite_recovered`).
-/

namespace Spfs

open Window (Shows)

/-- The record of `p` is that of a regular file whose extents hold the bytes, and no more. -/
structure OnDevice (w : World) (p offset : ℕ) (bytes : List UInt8) : Prop where
  hits : HitsRecord w p offset
  reg : sIsReg (beDecode ((w.disk offset).read 8 2)) = true
  content : FileBytes w (beDecode ((w.disk offset).read 34 4)) bytes true

/-- A reload of the file works, reads that follow it show a part of the bytes when they do not fail,
and when the stack of the reload holds the super block and a free lock, a read of the
rest of the file delivers it. -/
structure ReloadsAs (p : ℕ) (content : List UInt8) (w : World) : Prop where
  loads : ∀ env, (∀ t s, env.ioOk t s = true) → env.fuel ≠ 0 → (env.slabPick w.time).isSome = true →
    ∃ w', (spfsInodeById env p).run w = .ok (.ok (some p)) w'
  reads : ∀ env q w', (spfsInodeById env p).run w = .ok (.ok (some q)) w' → q = p ∧
    ∀ env' inLen ppos res ppos' bytes w'', (spfsRead env' p inLen ppos).run w' = .ok (res, ppos', bytes) w'' →
      0 ≤ res → bytes = (content.drop ppos).take inLen
  delivers : ∀ env w', (spfsInodeById env p).run w = .ok (.ok (some p)) w' →
    (env.junk (w'.time - 1)).iSb = .sb → (env.junk (w'.time - 1)).lock = false →
      ∀ (env' : Env) inLen ppos, (∀ t s, env'.ioOk t s = true) → content.length ≤ ppos + inLen →
        ∃ bound, ∀ fuel ≥ bound, ∃ ppos' w'', (spfsRead { env' with fuel := fuel } p inLen ppos).run w' =
          .ok ((content.drop ppos).length, ppos', content.drop ppos) w''

section Reload

variable {env : Env} {w w' : World} {p q offset : ℕ} {bytes : List UInt8}

theorem OnDevice.congr (h : OnDevice w p offset bytes) (hsame : SameTree w w') : OnDevice w' p offset bytes where
  hits := h.hits.congr hsame.start hsame.bSize (by rw [hsame.disk]) (by rw [hsame.disk]; exact h.hits.magic)
  reg := by
    rw [hsame.disk]
    exact h.reg
  content := by
    rw [FileBytes.congr hsame.disk hsame.bSize, hsame.disk]
    exact h.content

/-- A window of bytes that are all there are. -/
theorem FileBytes.shows {start pos n : ℕ} {out : List UInt8} (h : FileBytes w start bytes true)
    (hshows : Shows (FileBytes w start) pos n out) : out = (bytes.drop pos).take n :=
  hshows.eq_of_sees (sees_fileBytes w start) h fun _ => rfl

/-- The object that a reload makes starts where the record says, and has its lock and its super
block from the stack. -/
theorem OnDevice.load (h : OnDevice w p offset bytes) (hp : w.inodes p = none)
    (hrun : (spfsInodeById env p).run w = .ok (.ok (some q)) w') :
    q = p ∧ w'.disk = w.disk ∧ w'.bSize = w.bSize ∧ ∃ j, w'.inodes p = some j ∧ sIsReg j.iMode = true ∧
      j.start = beDecode ((w.disk offset).read 34 4) ∧ j.lock = (env.junk (w'.time - 1)).lock ∧
      j.iSb = (env.junk (w'.time - 1)).iSb := by
  obtain ⟨rfl, offset', s, k, nlink, hfinds, hj⟩ := spfsInodeById_loads hp hrun
  obtain ⟨k', hfinds'⟩ := h.hits.finds
  obtain rfl := hfinds.unique hfinds'
  have hstore : SameStore w w' := (spfsInodeById_reading env q).of_ok hrun
  exact ⟨rfl, hstore.disk, hstore.bSize, _, hj, h.reg, rfl, rfl, rfl⟩

/-- Where all blocks can be read, a read of the rest of a file comes through. -/
theorem readsThrough_of_path {path : List (ℕ × FileExtent)} {start inLen pos : ℕ}
    (hio : ∀ t s, env.ioOk t s = true) (hpath : ExtentPath w.disk start path 0)
    (hlen : (pathBytes w path).length ≤ pos + inLen) (t : ℕ) :
    ReadsThrough env w.bSize w.disk t start inLen pos := by
  generalize hlast : (0 : ℕ) = last at hpath
  induction hpath generalizing t inLen pos with
  | nil =>
    subst hlast
    exact .done
  | @cons s last e rest hs he _ ih =>
    rw [pathBytes, List.flatMap_cons, List.length_append, length_extentBytes] at hlen
    dsimp only at hlen
    refine .extent hs he (by omega) (fun _ _ => hio _ _) fun _ => ih ?_ _ hlast
    rw [pathBytes]
    omega

theorem OnDevice.reloadsAs (h : OnDevice w p offset bytes) (hp : w.inodes p = none) : ReloadsAs p bytes w where
  loads env hio hfuel hpick := by
    obtain ⟨k, hpick⟩ := Option.isSome_iff_exists.mp hpick
    obtain ⟨w', j, hrun, -⟩ := spfsInodeById_of_hit hio hfuel hp hpick h.hits h.reg
    exact ⟨w', hrun⟩
  reads env q w' hrun := by
    obtain ⟨rfl, hdisk, hsize, j, hj, -, hstart, -⟩ := h.load hp hrun
    refine ⟨rfl, fun env' inLen ppos res ppos' out w'' hread hres => ?_⟩
    obtain ⟨-, hshows⟩ := spfsRead_shows hj hread hres
    rw [FileBytes.congr hdisk hsize, hstart] at hshows
    exact h.content.shows hshows
  delivers env w' hrun hsb hlock env' inLen ppos hio hlen := by
    obtain ⟨-, hdisk, hsize, j, hj, hreg, hstart, hjlock, hjsb⟩ := h.load hp hrun
    rw [hlock] at hjlock
    rw [hsb] at hjsb
    have hcontent : FileBytes w' j.start bytes true := by
      rw [FileBytes.congr hdisk hsize, hstart]
      exact h.content
    obtain ⟨path, last, hpath, hbytes, hall⟩ := hcontent
    obtain rfl : last = 0 := hall rfl
    have hthrough : ReadsThrough env' w'.bSize w'.disk (w'.time + 1) j.start inLen ppos :=
      readsThrough_of_path hio hpath (hbytes ▸ hlen) _
    obtain ⟨bound, hbound⟩ := readDelivers_of_through hj hjsb hreg hjlock hthrough
    refine ⟨bound, fun fuel hfuel => ?_⟩
    obtain ⟨out, w'', hread, -, hshows⟩ := hbound fuel hfuel
    have hout : out = bytes.drop ppos := by
      have hwindow := FileBytes.shows ⟨path, 0, hpath, hbytes, fun _ => rfl⟩ hshows
      rwa [List.take_of_length_le (by rw [List.length_drop]; omega)] at hwindow
    rw [hout] at hread
    exact ⟨_, w'', hread⟩

end Reload

/-! ## The first write -/

section FirstWrite

variable {env : Env} {w w' : World} {p offset s : ℕ} {i : SpfsInode} {buf : List UInt8}

/-- The root of the tree is where it was. -/
def SameRoot (w w' : World) : Prop := w'.sbi.tree.start = w.sbi.tree.start

instance : IsPreorder World SameRoot where
  refl _ := rfl
  trans _ _ _ h h' := Eq.trans h' h

instance : IgnoresWrites SameRoot where
  addEvent _ _ := rfl
  setBlock _ _ _ _ := rfl
  setFreeList _ _ := rfl

/-- The walk to a record that the root holds finds it. -/
theorem HitsRecord.found {ino t offset' t' : ℕ} (h : HitsRecord w ino offset)
    (ha : TreeAnswers env w.bSize w.disk ino t w.sbi.tree.start (.found offset' t')) : offset' = offset := by
  obtain ⟨hne, hlength, ⟨j, hhit, -, hoffset⟩, -, -⟩ := h
  generalize w.sbi.tree.start = root at hne hlength hhit hoffset ha
  generalize hfound : Answer.found offset' t' = a at ha
  cases ha with
  | leaf => exact absurd rfl hne
  | broken => cases hfound
  | down _ _ hempty => exact absurd hempty (Nat.ne_of_gt hlength.1)
  | hit _ _ _ hhit' =>
    rw [hhit'.unique hhit, hoffset, recordAnswer] at hfound
    split at hfound
    · cases hfound
    split at hfound
    · cases hfound
    split at hfound
    · cases hfound
    · cases hfound
      rfl

/-- The blocks of an extent that holds the bytes from its header on. -/
theorem fileBytes_single {n : ℕ} (hs : s ≠ 0) (he : ExtentAt (w.disk s) ⟨0, n, buf.length⟩)
    (hdata : (Block.joined w.bSize w.disk s).read 16 buf.length = buf) : FileBytes w s buf true := by
  refine ⟨[(s, ⟨0, n, buf.length⟩)], 0, .cons hs he (.nil 0), ?_, fun _ => rfl⟩
  rw [pathBytes, List.flatMap_singleton, extentBytes, read_extentData]
  exact hdata.symm

/-- The first extent does not lie over the tree, so its start gets to the record. -/
theorem storesStart_firstExtent (hio : ∀ t b, env.ioOk t b = true) (hfuel : env.fuel ≠ 0)
    (hhits : HitsRecord w i.iIno offset) (hreg : sIsReg (beDecode ((w.disk offset).read 8 2)) = true)
    (hs : (spfsFreeAlloc w.sbi.freeList (firstBlocks w buf.length)).1 = s) (hroot : w.sbi.tree.start ≠ s)
    (hoffset : offset ≠ s) (j : SpfsInode) : StoresStart env i.iIno (withFirstExtent w p j buf.length) := by
  have hdisk {b : ℕ} (hb : b ≠ s) : (withFirstExtent w p j buf.length).disk b = w.disk b := by
    rw [← hs] at hb
    exact Function.update_of_ne hb _ _
  refine storesStart_of_hit hio hfuel (hhits.congr rfl rfl (hdisk hroot) ?_) ?_
  · rw [hdisk hoffset]
    exact hhits.magic
  · rw [hdisk hoffset]
    exact hreg

/-- The state in which the room for the first write was found: the new extent has its header, and
the record has its start. -/
theorem ensured_disk (hsize : w.sbi.blockSize = w.bSize) (hp : w.inodes p = some i) (hstart : i.start = 0)
    (hcapacity : i.capacity = 0) (hbuf : buf ≠ []) (hmax : buf.length ≤ maxRwCount) (hhits : HitsRecord w i.iIno offset)
    (hs : (spfsFreeAlloc w.sbi.freeList (firstBlocks w buf.length)).1 = s) (hroot : w.sbi.tree.start ≠ s)
    (hoffset : offset ≠ s) {extra : ℕ}
    (hrun : (spfsEnsureCapacity env p 0 buf.length).run w = .ok (0, extra) w') :
    ∃ stackAtStr junk capacity, w'.disk = Function.update (withNewExtent w.disk s (firstBlocks w buf.length)) offset
      (withRecord stackAtStr { parsedInode junk (w.disk offset) with start := s, capacity := capacity }
        (w.disk offset)) := by
  have hlen : 1 ≤ buf.length := List.length_pos_iff.mpr hbuf
  have hblocks : extraBlocks w i 0 buf.length = firstBlocks w buf.length := by
    rw [extraBlocks, hsize, hcapacity, spfsCalcExtraBlocks_first w hlen hmax]
  obtain ⟨x, capacity, hroom, -, -, hstored, -⟩ | ⟨-, hres⟩ := spfsEnsureCapacity_room hp hrun
  case inr => exact absurd rfl hres
  cases hroom with
  | enough hnone =>
    obtain ⟨hpos, -⟩ := firstBlocks_bounds w hlen hmax
    omega
  | @recorded s' offset' t _ hs' _ ha =>
    rw [hblocks] at hs' ha hstored
    obtain rfl : s' = s := hs'.symm.trans hs
    set w₁ := w.setBlock s' (withExtent ⟨0, firstBlocks w buf.length % 2 ^ 32, 0⟩ (w.disk s'))
    have hhits₁ : HitsRecord w₁ i.iIno offset := hhits.congr rfl rfl (Function.update_of_ne hroot _ _) (by
      rw [show w₁.disk offset = w.disk offset from Function.update_of_ne hoffset _ _]
      exact hhits.magic)
    obtain rfl : offset' = offset := hhits₁.found ha
    have hrecord : withNewExtent w.disk s' (firstBlocks w buf.length) offset' = w.disk offset' :=
      Function.update_of_ne hoffset _ _
    have hgrown : (i.grown w.sbi.blockSize s' (firstBlocks w buf.length)).start = s' := by
      rw [SpfsInode.grown, hstart, if_pos rfl]
    refine ⟨env.stack (t + 1), env.junk (t + 1),
      (i.grown w.sbi.blockSize s' (firstBlocks w buf.length)).capacity % 2 ^ 32, ?_⟩
    rw [hstored.disk, withStart, hrecord, hgrown]

/-- The bytes that were stored in the new extent are those of the file. -/
theorem onDevice_of_writes {w₂ : World} {n capacity : ℕ} {stackAtStr : Name} {junk : SpfsInode}
    (hhits : HitsRecord w p offset) (hreg : sIsReg (beDecode ((w.disk offset).read 8 2)) = true) (hne : s ≠ 0)
    (hsector : s < 2 ^ 32) (hlen : buf.length < 2 ^ 32) (hn : 1 ≤ n)
    (hroot : w.sbi.tree.start < s ∨ s + n ≤ w.sbi.tree.start) (hoffset : offset < s ∨ s + n ≤ offset)
    (hdisk : w₂.disk = Function.update (withNewExtent w.disk s n) offset (withRecord stackAtStr
      { parsedInode junk (w.disk offset) with start := s, capacity := capacity } (w.disk offset)))
    (hbSize : w₂.bSize = w.bSize) (htree : SameRoot w w')
    (hwrites : WritesExtent w₂ w' s ⟨0, n, 0⟩ ((FileExtent.linked ⟨0, n, 0⟩ 0).grow buf.length) 0 buf) :
    OnDevice w' p offset buf := by
  have hext : ExtentAt (w'.disk s) ⟨0, n, buf.length⟩ := by
    have hheader := hwrites.header
    have hgrown : ({ (FileExtent.linked ⟨0, n, 0⟩ 0).grow buf.length with
        next := ((FileExtent.linked ⟨0, n, 0⟩ 0).grow buf.length).next % 2 ^ 32 } : FileExtent) =
          ⟨0, n, buf.length⟩ := by
      simpa [FileExtent.linked, FileExtent.grow] using hlen
    rwa [hgrown] at hheader
  have hrecord : w'.disk offset = withRecord stackAtStr
      { parsedInode junk (w.disk offset) with start := s, capacity := capacity } (w.disk offset) := by
    rw [hwrites.frame offset hoffset, hdisk, Function.update_self]
  have hfields := parsedInode_withRecord stackAtStr junk
    { parsedInode junk (w.disk offset) with start := s, capacity := capacity } (w.disk offset)
  rw [← hrecord] at hfields
  have hmode : beDecode ((w'.disk offset).read 8 2) = beDecode ((w.disk offset).read 8 2) :=
    (congrArg SpfsInode.iMode hfields).trans (Nat.mod_eq_of_lt ((w.disk offset).decode_read_lt 8 2))
  have hstart : beDecode ((w'.disk offset).read 34 4) = s :=
    (congrArg SpfsInode.start hfields).trans (Nat.mod_eq_of_lt hsector)
  have hnode : w'.disk w.sbi.tree.start = w.disk w.sbi.tree.start := by
    -- the root is no record
    have hne : w.sbi.tree.start ≠ offset := by
      intro heq
      have hlength := hhits.length.2
      rw [heq, show nodeLength (w.disk offset) = spookyFsBtreeMagic from hhits.magic] at hlength
      exact absurd hlength (by decide)
    rw [hwrites.frame _ hroot, hdisk, Function.update_of_ne hne]
    exact Function.update_of_ne (by omega) _ _
  refine ⟨hhits.congr htree (hwrites.bSize.trans hbSize) hnode ?_, ?_, ?_⟩
  · rw [hrecord]
    exact recordMagic_withRecord _ _ _
  · rw [hmode]
    exact hreg
  · rw [hstart]
    refine fileBytes_single hne hext ?_
    rw [hwrites.bSize]
    have hbytes : (Block.joined w₂.bSize w'.disk s).read 16 buf.length =
        ((Block.joined w₂.bSize w₂.disk s).write (16 + 0) buf).read 16 buf.length :=
      Block.read_congr fun k _ => hwrites.bytes (16 + k) (Nat.le_add_right 16 k)
    rw [hbytes]
    exact Block.read_write_same rfl

/-- The first write to a file whose record is found fails and keeps the lock, and leaves all of its
bytes on the device: they are stored apart from the tree. -/
theorem run_spfsWrite_onDevice (hio : ∀ t b, env.ioOk t b = true) (hfuel : env.fuel ≠ 0)
    (hsize : w.sbi.blockSize = w.bSize) (hp : w.inodes p = some i) (hi : EmptyFile i) (hino : i.iIno = p)
    (hbuf : buf ≠ []) (hmax : buf.length ≤ maxRwCount) (hhits : HitsRecord w p offset)
    (hreg : sIsReg (beDecode ((w.disk offset).read 8 2)) = true)
    (hs : (spfsFreeAlloc w.sbi.freeList (firstBlocks w buf.length)).1 = s) (hne : s ≠ 0) (hsector : s < 2 ^ 32)
    (hroot : w.sbi.tree.start < s ∨ s + firstBlocks w buf.length ≤ w.sbi.tree.start)
    (hoffset : offset < s ∨ s + firstBlocks w buf.length ≤ offset) (pos : ℕ) :
    ∃ w', (spfsWrite env p buf pos).run w = .ok (- EIO, 0) w' ∧ HeldFile p w' ∧ OnDevice w' p offset buf := by
  have hlen : 1 ≤ buf.length := List.length_pos_iff.mpr hbuf
  obtain ⟨hpos, -, hroom, -⟩ := firstBlocks_bounds w hlen hmax
  have hroot' : w.sbi.tree.start ≠ s := by omega
  have hoffset' : offset ≠ s := by omega
  set w₁ := (w.setInode p { i with lock := true }).addEvent (.lock p)
  have hp₁ : w₁.inodes p = some { i with lock := true } := Function.update_self _ _ _
  have hblocks : firstBlocks w₁ buf.length = firstBlocks w buf.length := rfl
  have hhits₁ : HitsRecord w₁ i.iIno offset := hino.symm ▸ hhits.congr rfl rfl rfl hhits.magic
  -- room
  have hstores : StoresStart env i.iIno (withFirstExtent w₁ p { i with lock := true } buf.length) :=
    storesStart_firstExtent hio hfuel hhits₁ hreg hs hroot' hoffset' _
  obtain ⟨w₂, hensure, hp₂, hbsize₂, hsize₂, hext₂⟩ := run_spfsEnsureCapacity (w := w₁) hio hsize
    hp₁ hi.sb hi.start hi.capacity hlen hmax hs hne hstores
  rw [hblocks] at hp₂ hext₂
  have hbsize : w₂.bSize = w.bSize := hbsize₂
  obtain ⟨stackAtStr, junk, capacity, hdisk₂⟩ := ensured_disk (w := w₁) hsize hp₁ hi.start hi.capacity hbuf hmax
    hhits₁ hs hroot' hoffset' hensure
  -- the bytes
  obtain ⟨w₃, hwrite, hwrites⟩ := run_spfsWriteFileExtent (w := w₂) 0 0 (fun t b _ _ => hio t b)
    (hsize₂.trans hbsize₂.symm) hext₂ hpos hbuf
  have hall : min buf.length (firstBlocks w buf.length * w₂.bSize - (16 + 0)) = buf.length := by
    rw [hbsize]
    omega
  have hsome : min buf.length (w₂.bSize - (16 + 0)) ≠ 0 := by
    have hbig := w₂.le_bSize
    omega
  rw [hall, List.take_length] at hwrites
  have hrun : (spfsWrite env p buf pos).run w = .ok (- EIO, 0) w₃ := by
    have hclamp : (if pos > i.iSize then i.iSize else pos) = 0 := by
      rw [hi.size]
      split <;> omega
    obtain ⟨fuel, hfuel⟩ := Nat.exists_eq_succ_of_ne_zero hfuel
    have hlit : (spfsWriteLit env env.fuel s ⟨buf, 0⟩ 0 0).run w₂ = .ok (.error (- EIO)) w₃ := by
      rw [hfuel, spfsWriteLit]
      case x_5 => exact hne
      rw [EStateM.run_bind_of_ok hwrite]
      dsimp only
      rw [if_pos (by exact_mod_cast hsome)]
      rfl
    rw [spfsWrite, if_neg (by omega), EStateM.run_bind_of_ok (run_getInode_of hp),
      if_neg (by simp [hi.isReg]), EStateM.run_bind_of_ok (run_mutexLockInterruptible_of hp hi.unlocked)]
    dsimp only
    rw [if_neg Bool.false_ne_true, hclamp, EStateM.run_bind_of_ok hensure]
    dsimp only
    rw [if_neg (not_not.mpr rfl), EStateM.run_bind_of_ok (run_getInode_of hp₂), EStateM.run_bind_of_ok hlit]
    rfl
  have htree : SameRoot w w₃ := (within_spfsWrite_ignored (fun _ _ => rfl) env buf pos).of_ok hrun
  have hfits : buf.length < 2 ^ 32 := by
    rw [maxRwCount] at hmax
    omega
  refine ⟨w₃, hrun, ⟨_, (congrFun hwrites.inodes p).trans hp₂, hi.isReg, hi.sb, rfl⟩, ?_⟩
  exact onDevice_of_writes hhits hreg hne hsector hfits hpos hroot hoffset hdisk₂ hbsize htree hwrites

end FirstWrite

/-- An environment in which the stack holds an object that was in use. -/
def warmStack : Env := { Env.calm 9 with junk := fun _ => plainFile 1 }

end Spfs
