-- SUMMARY: What is left of an inode after its write-back, its eviction and its reload.
import Spfs.Btree.Exact
import Spfs.Inode

/-!
# Write-back and reload

`spfs_write_inode` makes the tree rewrite the record from what it parsed out of it: the
callback does not copy the inode into the record. A reload brings back the fields of the
old record, a name that is stack memory of the rewriting, and a size that is stack memory
of the reload.
-/

namespace Spfs

/-- The fields that have to come through write-back and reload agree. -/
structure Preserved (i j : SpfsInode) : Prop where
  fields : SameFields i j
  name : i.name = j.name
  size : i.iSize = j.iSize

section Tree

variable {disk : ℕ → Block} {bSize start ino offset s j : ℕ}

/-- The nodes of a walk are no records, so the walk does not depend on a record. -/
theorem FirstNode.update (h : FirstNode disk bSize start s) (hcap : nodeLength (disk s) ≤ 100)
    (hmagic : recordMagic (disk offset) = spookyFsBtreeMagic) (b : Block) :
    FirstNode (Function.update disk offset b) bSize start s := by
  have hnot {n : ℕ} (hn : nodeLength (disk n) ≤ 100) : n ≠ offset := by
    rintro rfl
    have hlen : nodeLength (disk n) = spookyFsBtreeMagic := hmagic
    rw [hlen] at hn
    exact absurd hn (by decide)
  induction h with
  | here hs hlen =>
    refine .here hs ?_
    rw [Function.update_of_ne (hnot hcap)]
    exact hlen
  | @down start s hs hlen _ ih =>
    have hne : start ≠ offset := hnot (by omega)
    refine .down hs ?_ ?_
    · rw [Function.update_of_ne hne]
      exact hlen
    · rw [Function.update_of_ne hne]
      exact ih hcap

/-- A rewritten record is found where it was. -/
theorem Finds.update (h : Finds disk bSize start ino offset s j)
    (hmagic : recordMagic (disk offset) = spookyFsBtreeMagic) (b : Block) :
    Finds (Function.update disk offset b) bSize start ino offset s j := by
  have hne : s ≠ offset := by
    rintro rfl
    have hlen : nodeLength (disk s) = spookyFsBtreeMagic := hmagic
    exact absurd (hlen ▸ h.le_capacity) (by decide)
  refine ⟨h.first.update h.le_capacity hmagic b, ?_, ?_, ?_, h.offset_ne⟩
  · rw [Function.update_of_ne hne]
    exact h.le_capacity
  · rw [Function.update_of_ne hne]
    exact h.hit
  · rw [Function.update_of_ne hne]
    exact h.offset_eq

end Tree

/-- A record that is parsed and made again keeps the fields it had. -/
theorem sameFields_remade (stackAtStr : Name) (junk out i : SpfsInode) (b : Block) :
    SameFields (parsedInode out (withRecord stackAtStr (parsedInode junk b) b)) (parsedInode i b) := by
  have hcut (pos : ℕ) : beDecode (b.read pos 4) % 2 ^ 32 = beDecode (b.read pos 4) :=
    Nat.mod_eq_of_lt (b.decode_read_lt pos 4)
  have hcut₂ : beDecode (b.read 8 2) % 2 ^ 16 = beDecode (b.read 8 2) :=
    Nat.mod_eq_of_lt (b.decode_read_lt 8 2)
  rw [parsedInode_withRecord]
  exact ⟨hcut₂, hcut 14, hcut 10, hcut 18, hcut 22, hcut 26, hcut 30, hcut 34⟩

section WriteBack

variable {env : Env} {w w₁ w₃ : World} {p q : ℕ} {i j : SpfsInode}

theorem SameFields.trans {k : SpfsInode} (h : SameFields i j) (h' : SameFields j k) :
    SameFields i k :=
  ⟨h.mode.trans h'.mode, h.uid.trans h'.uid, h.gid.trans h'.gid, h.atime.trans h'.atime,
    h.mtime.trans h'.mtime, h.ctime.trans h'.ctime, h.capacity.trans h'.capacity,
    h.start.trans h'.start⟩

theorem SameFields.symm (h : SameFields i j) : SameFields j i :=
  ⟨h.mode.symm, h.uid.symm, h.gid.symm, h.atime.symm, h.mtime.symm, h.ctime.symm,
    h.capacity.symm, h.start.symm⟩

/-- A write-back that returns 0 rewrites the record with a name from the stack. -/
theorem spfsWriteInode_zero (hp : w.inodes p = some i)
    (h : (spfsWriteInode env p).run w = .ok 0 w₁) :
    ∃ offset s k junk, Finds w.disk w.bSize w.sbi.tree.start i.iIno offset s k ∧
      recordMagic (w.disk offset) = spookyFsBtreeMagic ∧
      OnlyLogs (w.setBlock offset (withRecord (env.stack (w₁.time - 2))
        (parsedInode junk (w.disk offset)) (w.disk offset))) w₁ := by
  rw [spfsWriteInode, EStateM.run_bind_of_ok (run_getInode_of hp)] at h
  obtain ⟨_, w₂, hsb, hrun₂⟩ := EStateM.run_bind_eq_ok.mp h
  have hsame : w₂ = w := by
    have hframe := (within_superOf (R := Eq) i).of_ok hsb
    exact hframe.symm
  subst hsame
  obtain ⟨⟨res, _⟩, w₄, hmodify, hrun₄⟩ := EStateM.run_bind_eq_ok.mp hrun₂
  cases hrun₄
  obtain ⟨offset, s, k, t, cur, dirty, hfinds, hmagic, hcb, htime, hlogs⟩ :=
    spfsBtreeModify_zero hmodify
  cases hcb
  have ht : w₁.time - 2 = t := by
    rw [if_pos rfl] at htime
    omega
  rw [← ht] at hlogs
  exact ⟨offset, s, k, _, hfinds, hmagic, hlogs⟩

/-- After write-back, eviction and reload an inode has the fields of the old record, and
the name and the size from the stack. -/
theorem spfsWriteInode_reload (hp : w.inodes p = some i) (hino : i.iIno = p)
    (hwrite : (spfsWriteInode env p).run w = .ok 0 w₁)
    (hload : (spfsInodeById env p).run (w₁.evict p) = .ok (.ok (some q)) w₃)
    (hj : w₃.inodes q = some j) :
    ∃ offset s k, Finds w.disk w.bSize w.sbi.tree.start p offset s k ∧
      SameFields j (parsedInode i (w.disk offset)) ∧ j.name = env.stack (w₁.time - 2) ∧
      j.iSize = (env.junk (w₃.time - 1)).iSize := by
  obtain ⟨offset, s, k, junk, hfinds, hmagic, hlogs⟩ := spfsWriteInode_zero hp hwrite
  subst hino
  have hp₁ : w₁.inodes i.iIno = some i := by
    rw [hlogs.inodes]
    exact hp
  have hnone : (w₁.evict i.iIno).inodes i.iIno = none := by
    rw [World.evict, hp₁]
    exact Function.update_self _ _ _
  have hstore := sameStore_evict w₁ i.iIno
  obtain ⟨rfl, offset', s', k', j', hfinds', hj', hfields, hname, hsize⟩ :=
    spfsInodeById_loaded hnone hload
  obtain rfl : j = j' := Option.some.inj (hj.symm.trans hj')
  -- the reload finds the record that was rewritten
  rw [hstore.disk, hstore.bSize, hstore.sbi, hlogs.disk, hlogs.bSize, hlogs.sbi] at hfinds'
  obtain rfl : offset' = offset := hfinds'.unique (hfinds.update hmagic _)
  rw [hstore.disk, hlogs.disk, World.setBlock_disk, Function.update_self] at hfields hname
  rw [name_withRecord] at hname
  exact ⟨offset', s, k, hfinds, hfields.trans (sameFields_remade _ junk j i _), hname, hsize⟩

/-- An inode comes through write-back, eviction and reload exactly when its record had
its fields already and stack memory has its name and its size. -/
theorem spfsWriteInode_reload_iff (hp : w.inodes p = some i) (hino : i.iIno = p)
    (hwrite : (spfsWriteInode env p).run w = .ok 0 w₁)
    (hload : (spfsInodeById env p).run (w₁.evict p) = .ok (.ok (some q)) w₃)
    (hj : w₃.inodes q = some j) :
    Preserved i j ↔ ∃ offset s k, Finds w.disk w.bSize w.sbi.tree.start p offset s k ∧
      SameFields i (parsedInode i (w.disk offset)) ∧ env.stack (w₁.time - 2) = i.name ∧
      (env.junk (w₃.time - 1)).iSize = i.iSize := by
  obtain ⟨offset, s, k, hfinds, hfields, hname, hsize⟩ :=
    spfsWriteInode_reload hp hino hwrite hload hj
  constructor
  · intro hpres
    exact ⟨offset, s, k, hfinds, hpres.fields.trans hfields, hname.symm.trans hpres.name.symm,
      hsize.symm.trans hpres.size.symm⟩
  · rintro ⟨offset', s', k', hfinds', hfields', hstack, hjunk⟩
    obtain rfl : offset' = offset := hfinds'.unique hfinds
    exact ⟨hfields'.trans hfields.symm, hstack.symm.trans hname.symm, hjunk.symm.trans hsize.symm⟩

/-- The record of a regular file that a search hits is loaded. -/
theorem spfsInodeById_of_hit {offset k : ℕ} (hio : ∀ t s, env.ioOk t s = true)
    (hfuel : env.fuel ≠ 0) (hp : w.inodes p = none) (hpick : env.slabPick w.time = some k)
    (h : HitsRecord w p offset) (hreg : sIsReg (beDecode ((w.disk offset).read 8 2)) = true) :
    ∃ w' j, (spfsInodeById env p).run w = .ok (.ok (some p)) w' ∧ w'.inodes p = some j := by
  set w₁ := withNewObject w p k
  set obj := newObject p (w.slab[k]?.getD spfsInodeInitOnce) with hobj
  have hget : (igetLocked env p).run w = .ok (some p) w₁ := by
    rw [run_igetLocked_none p hp, hpick]
  have hp₁ : w₁.inodes p = some obj := Function.update_self _ _ _
  have hhits : HitsRecord w₁ p offset := h.congr rfl rfl rfl h.magic
  have hmodify : ∃ r w₂, (spfsBtreeLookup env p obj).run w₁ = .ok (0, r) w₂ :=
    spfsBtreeModify_of_hit hio hfuel hhits fun junk => ⟨_, _, _, rfl⟩
  obtain ⟨r, w₂, hlookup⟩ := hmodify
  obtain ⟨offset', s, j, t, hfinds, -, hr, -⟩ := spfsBtreeLookup_zero hlookup
  obtain ⟨j', hfinds'⟩ := hhits.finds
  obtain rfl : offset' = offset := hfinds.unique hfinds'
  have hmode : sIsReg r.iMode = true := by
    rw [hr]
    exact hreg
  have hp₃ : (w₂.setInode p r).inodes p = some r := Function.update_self _ _ _
  have hsetup : (spfsSetupInodeFp p).run (w₂.setInode p r) = .ok () (w₂.setInode p r) := by
    rw [spfsSetupInodeFp, EStateM.run_bind_of_ok (run_getInode_of hp₃), if_pos hmode]
    rfl
  refine ⟨(w₂.setInode p r).setInode p { r with iNew := false }, _, ?_, Function.update_self _ _ _⟩
  rw [spfsInodeById, EStateM.run_bind_of_ok hget]
  dsimp only
  rw [EStateM.run_bind_of_ok (run_getInode_of hp₁), if_neg (by simp [hobj, newObject]),
    EStateM.run_bind_of_ok hlookup]
  dsimp only
  rw [if_neg (not_not.mpr rfl), EStateM.run_bind_of_ok (run_putInode p r w₂),
    EStateM.run_bind_of_ok hsetup, EStateM.run_bind_of_ok (run_unlockNewInode hp₃)]
  rfl

end WriteBack

/-! ## A file that grew in memory -/

/-- The file of `oneFileWorld` after it got an extent that its record does not have. -/
def grownFile : SpfsInode :=
  { plainFile 1 with start := 101, capacity := 4080, iHashed := true, iCount := 1 }

def grownFileWorld : World := oneFileWorld.setInode 1 grownFile

theorem hitsRecord_grownFileWorld : HitsRecord grownFileWorld 1 8 :=
  hitsRecord_oneFileWorld.congr rfl rfl rfl (recordMagic_withRecord _ _ _)

/-- Write-back of the file returns 0, and a reload finds it. -/
theorem grownFile_reloads :
    ∃ w₁ w₃ j, (spfsWriteInode (.calm 9) 1).run grownFileWorld = .ok 0 w₁ ∧
      (spfsInodeById (.calm 9) 1).run (w₁.evict 1) = .ok (.ok (some 1)) w₃ ∧
      w₃.inodes 1 = some j := by
  have hp : grownFileWorld.inodes 1 = some grownFile := rfl
  have hhits := hitsRecord_grownFileWorld
  have hmodify : ∃ r w₁, (spfsBtreeModify (.calm 9) grownFile.iIno () spfsModInodeCb).run
      grownFileWorld = .ok (0, r) w₁ :=
    spfsBtreeModify_of_hit (fun _ _ => rfl) (Nat.succ_ne_zero 8) hhits fun junk => ⟨_, _, _, rfl⟩
  obtain ⟨_, w₁, hmodify⟩ := hmodify
  have hwrite : (spfsWriteInode (.calm 9) 1).run grownFileWorld = .ok 0 w₁ := by
    rw [spfsWriteInode, EStateM.run_bind_of_ok (run_getInode_of hp),
      EStateM.run_bind_of_ok (run_superOf rfl grownFileWorld), EStateM.run_bind_of_ok hmodify]
    rfl
  -- the rewritten record is still one of a regular file, and it is still hit
  obtain ⟨offset, s, k, junk, hfinds, hmagic, hlogs⟩ := spfsWriteInode_zero hp hwrite
  obtain ⟨k', hfinds'⟩ := hhits.finds
  obtain rfl : offset = 8 := hfinds.unique hfinds'
  have hstore := sameStore_evict w₁ 1
  have hdisk : (w₁.evict 1).disk 8 = withRecord ((Env.calm 9).stack (w₁.time - 2))
      (parsedInode junk (grownFileWorld.disk 8)) (grownFileWorld.disk 8) := by
    rw [hstore.disk, hlogs.disk, World.setBlock_disk, Function.update_self]
  have hnode : (w₁.evict 1).disk 7 = grownFileWorld.disk 7 := by
    rw [hstore.disk, hlogs.disk, World.setBlock_disk, Function.update_of_ne (by decide)]
  have hhits₁ : HitsRecord (w₁.evict 1) 1 8 := by
    refine hhits.congr ?_ ?_ hnode ?_
    · rw [hstore.sbi, hlogs.sbi]
      rfl
    · rw [hstore.bSize, hlogs.bSize]
      rfl
    · rw [hdisk]
      exact recordMagic_withRecord _ _ _
  have hreg : sIsReg (beDecode (((w₁.evict 1).disk 8).read 8 2)) = true := by
    have hmode := (sameFields_remade ((Env.calm 9).stack (w₁.time - 2)) junk grownFile grownFile
      (grownFileWorld.disk 8)).mode
    rw [← hdisk] at hmode
    have hold : sIsReg (parsedInode grownFile (grownFileWorld.disk 8)).iMode = true := by decide
    rw [← hmode] at hold
    exact hold
  have hnone : (w₁.evict 1).inodes 1 = none := by
    have hp₁ : w₁.inodes 1 = some grownFile := by
      rw [hlogs.inodes]
      exact hp
    simp [World.evict, hp₁]
  have hload : ∃ w₃ j, (spfsInodeById (.calm 9) 1).run (w₁.evict 1) = .ok (.ok (some 1)) w₃ ∧
      w₃.inodes 1 = some j :=
    spfsInodeById_of_hit (fun _ _ => rfl) (Nat.succ_ne_zero 8) hnone rfl hhits₁ hreg
  obtain ⟨w₃, j, hload, hj⟩ := hload
  exact ⟨w₁, w₃, j, hwrite, hload, hj⟩

theorem spfsWriteInode_reload_iff_grownFile :
    ∃ w₁ w₃ j, (spfsWriteInode (.calm 9) 1).run grownFileWorld = .ok 0 w₁ ∧
      (spfsInodeById (.calm 9) 1).run (w₁.evict 1) = .ok (.ok (some 1)) w₃ ∧
      w₃.inodes 1 = some j ∧
      (Preserved grownFile j ↔ ∃ offset s k, Finds grownFileWorld.disk grownFileWorld.bSize
          grownFileWorld.sbi.tree.start 1 offset s k ∧
        SameFields grownFile (parsedInode grownFile (grownFileWorld.disk offset)) ∧
        (Env.calm 9).stack (w₁.time - 2) = grownFile.name ∧
        ((Env.calm 9).junk (w₃.time - 1)).iSize = grownFile.iSize) := by
  obtain ⟨w₁, w₃, j, hwrite, hload, hj⟩ := grownFile_reloads
  exact ⟨w₁, w₃, j, hwrite, hload, hj, spfsWriteInode_reload_iff rfl rfl hwrite hload hj⟩

/-- The start and the capacity of a file are lost on the way. -/
theorem not_preserved_grownFile :
    ∃ w₁ w₃ j, (spfsWriteInode (.calm 9) 1).run grownFileWorld = .ok 0 w₁ ∧
      (spfsInodeById (.calm 9) 1).run (w₁.evict 1) = .ok (.ok (some 1)) w₃ ∧
      w₃.inodes 1 = some j ∧ ¬ Preserved grownFile j := by
  obtain ⟨w₁, w₃, j, hwrite, hload, hj⟩ := grownFile_reloads
  refine ⟨w₁, w₃, j, hwrite, hload, hj, fun hpres => ?_⟩
  obtain ⟨offset, s, k, hfinds, hfields, -⟩ :=
    @spfsWriteInode_reload (.calm 9) grownFileWorld w₁ w₃ 1 1 grownFile j rfl rfl hwrite hload hj
  obtain ⟨k', hfinds'⟩ := hitsRecord_grownFileWorld.finds
  obtain rfl : offset = 8 := hfinds.unique hfinds'
  have hstart := hpres.fields.start.trans hfields.start
  exact absurd hstart (by decide)

end Spfs
