-- SUMMARY: btree.c: the record of an inode in its block, how it is parsed and how it is made.
import Spfs.Util

/-!
# Inode records

`spfs_inode_parse` and `spfs_inode_make`. A record holds the fields of an inode
one after the other; a parse of a record that was made gives the fields back, cut
to their widths. Two things are lost: the size of the inode has no place in a
record, and the place of the name is filled from the stack, because
`spfs_sb_write_str` copies from the address of its parameter.
-/

namespace Spfs

/-- Parse a record into the object `out`. An object that was filled in part before
an error is a local of the caller, which drops it. -/
def spfsInodeParse (out : SpfsInode) (bSize : ℕ) (b : Block) :
    EStateM Fault ℕ (Except ℤ SpfsInode) := do
  let some magic ← spfsSbReadU32 bSize b | return .error (- EIO)
  let some ino ← spfsSbReadIno bSize b | return .error (- EIO)
  let some mode ← spfsSbReadU16 bSize b | return .error (- EIO)
  let some gid ← spfsSbReadU32 bSize b | return .error (- EIO)
  let some uid ← spfsSbReadU32 bSize b | return .error (- EIO)
  let some atime ← spfsSbReadU32 bSize b | return .error (- EIO)
  let some mtime ← spfsSbReadU32 bSize b | return .error (- EIO)
  let some ctime ← spfsSbReadU32 bSize b | return .error (- EIO)
  let some capacity ← spfsSbReadU32 bSize b | return .error (- EIO)
  let some start ← spfsSbReadSector bSize b | return .error (- EIO)
  let some name ← spfsSbReadStr 256 bSize b | return .error (- EIO)
  if magic ≠ spookyFsBtreeMagic then
    return .error (-EINVAL)
  return .ok { out with
    iIno := ino, iMode := mode, iGid := gid, iUid := uid, iAtime := atime, iMtime := mtime,
    iCtime := ctime, capacity := capacity, start := start, name := name }

/-- Make a record of `in_`. `stackAtStr` is what the stack holds from the address of
the parameter `str` of `spfs_sb_write_str` on. -/
def spfsInodeMake (stackAtStr : Name) (in_ : SpfsInode) (bSize : ℕ) : EStateM Fault Buf ℤ := do
  if !(← spfsSbWriteU32 bSize spookyFsBtreeMagic) then return - EIO
  if !(← spfsSbWriteU32 bSize in_.iIno) then return - EIO
  if !(← spfsSbWriteU16 bSize in_.iMode) then return - EIO
  if !(← spfsSbWriteU32 bSize in_.iGid) then return - EIO
  if !(← spfsSbWriteU32 bSize in_.iUid) then return - EIO
  if !(← spfsSbWriteU32 bSize in_.iAtime) then return - EIO
  if !(← spfsSbWriteU32 bSize in_.iMtime) then return - EIO
  if !(← spfsSbWriteU32 bSize in_.iCtime) then return - EIO
  if !(← spfsSbWriteU32 bSize in_.capacity) then return - EIO
  if !(← spfsSbWriteU32 bSize in_.start) then return - EIO
  if !(← spfsSbWriteStr bSize stackAtStr) then return - EIO
  return 0

/-! ## What a record holds -/

/-- The magic number at the start of a record. -/
def recordMagic (b : Block) : ℕ := beDecode (b.read 0 4)

/-- The object `out` with its persistent fields from the record. -/
def parsedInode (out : SpfsInode) (b : Block) : SpfsInode :=
  { out with
    iIno := beDecode (b.read 4 4)
    iMode := beDecode (b.read 8 2)
    iGid := beDecode (b.read 10 4)
    iUid := beDecode (b.read 14 4)
    iAtime := beDecode (b.read 18 4)
    iMtime := beDecode (b.read 22 4)
    iCtime := beDecode (b.read 26 4)
    capacity := beDecode (b.read 30 4)
    start := beDecode (b.read 34 4)
    name := b.readBytes 38 256 }

/-- The fields of a record in the order of their places. -/
def recordFields (stackAtStr : Name) (i : SpfsInode) : List (List UInt8) :=
  [beEncode 4 spookyFsBtreeMagic, beEncode 4 i.iIno, beEncode 2 i.iMode, beEncode 4 i.iGid,
    beEncode 4 i.iUid, beEncode 4 i.iAtime, beEncode 4 i.iMtime, beEncode 4 i.iCtime,
    beEncode 4 i.capacity, beEncode 4 i.start, stackAtStr.val]

/-- The block `b` after the record of `i` was written to it. -/
def withRecord (stackAtStr : Name) (i : SpfsInode) (b : Block) : Block :=
  b.write 0 (recordFields stackAtStr i).flatten

theorem run_spfsInodeParse {out : SpfsInode} {bSize : ℕ} {b : Block} (h : 512 ≤ bSize) :
    (spfsInodeParse out bSize b).run 0 =
      .ok (if recordMagic b = spookyFsBtreeMagic then .ok (parsedInode out b)
        else .error (-EINVAL)) 294 := by
  simp (disch := omega) only [spfsInodeParse, EStateM.run_bind_match, run_spfsSbReadU32,
    run_spfsSbReadIno, run_spfsSbReadU16, run_spfsSbReadSector, run_spfsSbReadStr, Nat.zero_add,
    Nat.reduceAdd, EStateM.run_ite]
  by_cases hmagic : recordMagic b = spookyFsBtreeMagic
  · have heq : ¬ beDecode (b.read 0 4) ≠ spookyFsBtreeMagic := not_not.mpr hmagic
    rw [if_neg heq, if_pos hmagic]
    rfl
  · have hne : beDecode (b.read 0 4) ≠ spookyFsBtreeMagic := hmagic
    rw [if_pos hne, if_neg hmagic]
    rfl

theorem run_spfsInodeMake {stackAtStr : Name} {i : SpfsInode} {bSize : ℕ} {b : Block}
    (h : 512 ≤ bSize) :
    (spfsInodeMake stackAtStr i bSize).run ⟨b, 0⟩ =
      .ok 0 ⟨withRecord stackAtStr i b, 294⟩ := by
  refine (EStateM.run_check_of_true (run_spfsSbWriteU32 (by omega))).trans ?_
  refine (EStateM.run_check_of_true (run_spfsSbWriteU32 (by omega))).trans ?_
  refine (EStateM.run_check_of_true (run_spfsSbWriteU16 (by omega))).trans ?_
  refine (EStateM.run_check_of_true (run_spfsSbWriteU32 (by omega))).trans ?_
  refine (EStateM.run_check_of_true (run_spfsSbWriteU32 (by omega))).trans ?_
  refine (EStateM.run_check_of_true (run_spfsSbWriteU32 (by omega))).trans ?_
  refine (EStateM.run_check_of_true (run_spfsSbWriteU32 (by omega))).trans ?_
  refine (EStateM.run_check_of_true (run_spfsSbWriteU32 (by omega))).trans ?_
  refine (EStateM.run_check_of_true (run_spfsSbWriteU32 (by omega))).trans ?_
  refine (EStateM.run_check_of_true (run_spfsSbWriteU32 (by omega))).trans ?_
  refine (EStateM.run_check_of_true (run_spfsSbWriteStr (by omega))).trans ?_
  simp only [withRecord, recordFields, List.flatten_cons, List.flatten_nil, List.append_nil,
    Block.write_append, length_beEncode, Nat.zero_add, Nat.reduceAdd, EStateM.run_pure]

/-- The `k`-th field of a record stands at the end of those before it. -/
theorem read_withRecord {stackAtStr : Name} {i : SpfsInode} {b : Block} {pos len : ℕ} (k : ℕ)
    (hk : k < (recordFields stackAtStr i).length)
    (hpos : ((recordFields stackAtStr i).take k).flatten.length = pos)
    (hlen : (recordFields stackAtStr i)[k].length = len) :
    (withRecord stackAtStr i b).read pos len = (recordFields stackAtStr i)[k] := by
  subst hpos hlen
  have := Block.read_write_flatten b 0 (recordFields stackAtStr i) hk
  rwa [Nat.zero_add] at this

/-- A number in a record reads back cut to the width of its field. -/
theorem number_withRecord {stackAtStr : Name} {i : SpfsInode} {b : Block} {len n : ℕ} (k pos : ℕ)
    (hk : (recordFields stackAtStr i)[k]? = some (beEncode len n))
    (hpos : ((recordFields stackAtStr i).take k).flatten.length = pos) :
    beDecode ((withRecord stackAtStr i b).read pos len) = n % 256 ^ len := by
  have hread := b.number_write_flatten 0 k pos hk hpos
  rwa [Nat.zero_add] at hread

theorem name_withRecord (stackAtStr : Name) (i : SpfsInode) (b : Block) :
    (withRecord stackAtStr i b).readBytes 38 256 = stackAtStr :=
  Subtype.ext (read_withRecord 10 (by simp [recordFields]) rfl stackAtStr.property)

@[simp] theorem recordMagic_withRecord (stackAtStr : Name) (i : SpfsInode) (b : Block) :
    recordMagic (withRecord stackAtStr i b) = spookyFsBtreeMagic :=
  number_withRecord 0 0 rfl rfl

/-- A record that was made parses to the inode it was made from, with every field
cut to its width and the name taken from the stack. -/
theorem parsedInode_withRecord (stackAtStr : Name) (out i : SpfsInode) (b : Block) :
    parsedInode out (withRecord stackAtStr i b) =
      { out with
        iIno := i.iIno % 2 ^ 32
        iMode := i.iMode % 2 ^ 16
        iGid := i.iGid % 2 ^ 32
        iUid := i.iUid % 2 ^ 32
        iAtime := i.iAtime % 2 ^ 32
        iMtime := i.iMtime % 2 ^ 32
        iCtime := i.iCtime % 2 ^ 32
        capacity := i.capacity % 2 ^ 32
        start := i.start % 2 ^ 32
        name := stackAtStr } := by
  rw [parsedInode, name_withRecord, number_withRecord 1 4 rfl rfl, number_withRecord 2 8 rfl rfl,
    number_withRecord 3 10 rfl rfl, number_withRecord 4 14 rfl rfl, number_withRecord 5 18 rfl rfl,
    number_withRecord 6 22 rfl rfl, number_withRecord 7 26 rfl rfl, number_withRecord 8 30 rfl rfl,
    number_withRecord 9 34 rfl rfl]
  rfl

/-! ## Round trip -/

/-- The fields of an inode that have a place in a record have the width of that place. -/
structure FitsRecord (i : SpfsInode) : Prop where
  ino : i.iIno < 2 ^ 32
  mode : i.iMode < 2 ^ 16
  gid : i.iGid < 2 ^ 32
  uid : i.iUid < 2 ^ 32
  atime : i.iAtime < 2 ^ 32
  mtime : i.iMtime < 2 ^ 32
  ctime : i.iCtime < 2 ^ 32
  capacity : i.capacity < 2 ^ 32
  start : i.start < 2 ^ 32

/-- The object `out` with the persistent fields of `i`. -/
def SpfsInode.withPersistent (out i : SpfsInode) : SpfsInode :=
  { out with
    iIno := i.iIno, iMode := i.iMode, iGid := i.iGid, iUid := i.iUid, iAtime := i.iAtime,
    iMtime := i.iMtime, iCtime := i.iCtime, capacity := i.capacity, start := i.start, name := i.name }

/-- The record of `i` is made at the front of a buffer, nothing behind it changes, and its
parse fills an object with all persistent fields of `i`. -/
def RoundTrips (stackAtStr : Name) (i : SpfsInode) (bSize : ℕ) (b : Block) : Prop :=
  ∃ b', (spfsInodeMake stackAtStr i bSize).run ⟨b, 0⟩ = .ok 0 ⟨b', 294⟩ ∧
    (∀ k, 294 ≤ k → b' k = b k) ∧
    ∀ out, (spfsInodeParse out bSize b').run 0 = .ok (.ok (out.withPersistent i)) 294

theorem length_recordFields (stackAtStr : Name) (i : SpfsInode) :
    (recordFields stackAtStr i).flatten.length = 294 := by
  simp [recordFields, stackAtStr.property]

/-- A record of fields that fit parses to them, with the name that was on the stack. -/
theorem parsedInode_withRecord_of_fits {stackAtStr : Name} {i : SpfsInode} (h : FitsRecord i)
    (out : SpfsInode) (b : Block) :
    parsedInode out (withRecord stackAtStr i b) =
      { out.withPersistent i with name := stackAtStr } := by
  rw [parsedInode_withRecord, Nat.mod_eq_of_lt h.ino, Nat.mod_eq_of_lt h.mode, Nat.mod_eq_of_lt h.gid,
    Nat.mod_eq_of_lt h.uid, Nat.mod_eq_of_lt h.atime, Nat.mod_eq_of_lt h.mtime,
    Nat.mod_eq_of_lt h.ctime, Nat.mod_eq_of_lt h.capacity, Nat.mod_eq_of_lt h.start]
  rfl

/-- A record brings the inode back exactly when its name happens to be what is on the
stack. -/
theorem spfsInode_roundTrips_iff {stackAtStr : Name} {i : SpfsInode} {bSize : ℕ} {b : Block}
    (h : FitsRecord i) (hsize : 512 ≤ bSize) :
    RoundTrips stackAtStr i bSize b ↔ stackAtStr = i.name := by
  have hmake : (spfsInodeMake stackAtStr i bSize).run ⟨b, 0⟩ = .ok 0 ⟨withRecord stackAtStr i b, 294⟩ :=
    run_spfsInodeMake hsize
  have hparse (out : SpfsInode) : (spfsInodeParse out bSize (withRecord stackAtStr i b)).run 0 =
      .ok (.ok { out.withPersistent i with name := stackAtStr }) 294 := by
    rw [run_spfsInodeParse hsize, if_pos (recordMagic_withRecord stackAtStr i b),
      parsedInode_withRecord_of_fits h]
  constructor
  · rintro ⟨b', hmade, -, hback⟩
    obtain rfl : withRecord stackAtStr i b = b' := by
      rw [hmake] at hmade
      cases hmade
      rfl
    have hsame := (hparse i).symm.trans (hback i)
    injection hsame with hinode
    exact congrArg SpfsInode.name (Except.ok.inj hinode)
  · intro hname
    refine ⟨_, hmake, fun k hk => ?_, fun out => ?_⟩
    · apply Block.write_apply_of_ge
      rw [length_recordFields]
      omega
    · rw [hparse, hname]
      rfl

theorem length_replicate_a : (List.replicate 256 (97 : UInt8)).length = 256 := List.length_replicate

/-- A file with 256 letters for its name. -/
def longNameInode : SpfsInode :=
  { spfsInodeInitOnce with iIno := 1, name := ⟨List.replicate 256 97, length_replicate_a⟩ }

theorem fitsRecord_longName : FitsRecord longNameInode :=
  ⟨by decide, by decide, by decide, by decide, by decide, by decide, by decide, by decide, by decide⟩

theorem spfsInode_roundTrips_iff_longName :
    RoundTrips longNameInode.name longNameInode 512 (fun _ => 0) ↔
      longNameInode.name = longNameInode.name :=
  spfsInode_roundTrips_iff fitsRecord_longName le_rfl

/-- A stack on which the parameter `str` is the address 0xFFFF888000001000. -/
def pointerStack : Name :=
  ⟨[0, 16, 0, 0, 128, 136, 255, 255] ++ List.replicate 248 0, by
    rw [List.length_append, List.length_replicate]
    rfl⟩

/-- The address gets into the record in place of the name. -/
theorem not_roundTrips_pointer :
    FitsRecord longNameInode ∧ ¬ RoundTrips pointerStack longNameInode 512 (fun _ => 0) := by
  refine ⟨fitsRecord_longName, ?_⟩
  rintro ⟨b', hmade, -, hback⟩
  rw [run_spfsInodeMake le_rfl] at hmade
  cases hmade
  have hname := hback longNameInode
  rw [run_spfsInodeParse le_rfl, if_pos (recordMagic_withRecord _ _ _)] at hname
  injection hname with hinode
  have hlost : (withRecord pointerStack longNameInode fun _ => 0).readBytes 38 256 =
      longNameInode.name := congrArg SpfsInode.name (Except.ok.inj hinode)
  rw [name_withRecord] at hlost
  exact absurd hlost (by decide)

end Spfs
