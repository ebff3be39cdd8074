-- SUMMARY: What a lookup in the tree does to the inode object that it fills.
import Spfs.Btree.Exact
import Spfs.Inode

/-!
# Filling an object

`btree_visit_entry` parses a record into a `struct spfs_inode` of its own, and
`spfs_btree_lookup_cb` copies all of it over the object. What has no place in a record is
what was on the stack.
-/

namespace Spfs

/-- The two objects differ in their persistent fields at most: the size, the links, the
references, the state, the hash linkage, the super block and the lock are the same. -/
def OnlyPersistent (i r : SpfsInode) : Prop := i.withPersistent r = r

section Load

variable {env : Env} {w w' : World} {p : ℕ} {i r : SpfsInode}

theorem onlyPersistent_iff :
    OnlyPersistent i r ↔ i.iSize = r.iSize ∧ i.iNlink = r.iNlink ∧ i.iCount = r.iCount ∧
      i.iNew = r.iNew ∧ i.iDirty = r.iDirty ∧ i.iHashed = r.iHashed ∧ i.iSb = r.iSb ∧
      i.lock = r.lock := by
  constructor
  · intro h
    rw [← h]
    exact ⟨rfl, rfl, rfl, rfl, rfl, rfl, rfl, rfl⟩
  · rintro ⟨hsize, hnlink, hcount, hnew, hdirty, hhashed, hsb, hlock⟩
    unfold OnlyPersistent SpfsInode.withPersistent
    rw [hsize, hnlink, hcount, hnew, hdirty, hhashed, hsb, hlock]

/-- The persistent fields of what is compared do not matter. -/
theorem onlyPersistent_parsedInode (out : SpfsInode) (b : Block) :
    OnlyPersistent i (parsedInode out b) ↔ OnlyPersistent i out := by
  rw [onlyPersistent_iff, onlyPersistent_iff]
  rfl

/-- A lookup leaves what is not persistent in the object that it fills exactly when it was
the same in the temporary object on the stack. -/
theorem spfsBtreeLookup_onlyPersistent_iff (h : (spfsBtreeLookup env p i).run w = .ok (0, r) w') :
    OnlyPersistent i r ↔ OnlyPersistent i (env.junk (w'.time - 1)) := by
  obtain ⟨offset, s, j, t, -, -, rfl, htime⟩ := spfsBtreeLookup_zero h
  rw [htime, Nat.add_sub_cancel]
  exact onlyPersistent_parsedInode _ _

end Load

/-! ## A record that is loaded -/

/-- The file of `oneFileWorld` is about to be loaded. -/
def loadingWorld : World := oneFileWorld.setInode 1 (newObject 1 spfsInodeInitOnce)

theorem loadingWorld_lookup :
    ∃ r w', (spfsBtreeLookup (.calm 9) 1 (newObject 1 spfsInodeInitOnce)).run loadingWorld =
      .ok (0, r) w' := by
  have hhits : HitsRecord loadingWorld 1 8 :=
    hitsRecord_oneFileWorld.congr rfl rfl rfl (recordMagic_withRecord _ _ _)
  exact spfsBtreeModify_of_hit (fun _ _ => rfl) (Nat.succ_ne_zero 8) hhits fun junk => ⟨_, _, _, rfl⟩

theorem spfsBtreeLookup_onlyPersistent_iff_oneFile :
    ∃ r w', (spfsBtreeLookup (.calm 9) 1 (newObject 1 spfsInodeInitOnce)).run loadingWorld =
        .ok (0, r) w' ∧
      (OnlyPersistent (newObject 1 spfsInodeInitOnce) r ↔
        OnlyPersistent (newObject 1 spfsInodeInitOnce) ((Env.calm 9).junk (w'.time - 1))) := by
  obtain ⟨r, w', hlookup⟩ := loadingWorld_lookup
  exact ⟨r, w', hlookup, spfsBtreeLookup_onlyPersistent_iff hlookup⟩

/-- A stack of zeros takes the reference, the hash linkage and the super block away. -/
theorem not_onlyPersistent_oneFile :
    ∃ i r w', loadingWorld.inodes 1 = some i ∧ i.iNew = true ∧
      (spfsBtreeLookup (.calm 9) 1 i).run loadingWorld = .ok (0, r) w' ∧
      r.iCount ≠ i.iCount ∧ r.iHashed ≠ i.iHashed ∧ r.iSb ≠ i.iSb ∧ ¬ OnlyPersistent i r := by
  obtain ⟨r, w', hlookup⟩ := loadingWorld_lookup
  obtain ⟨offset, s, j, t, -, -, hr, -⟩ := spfsBtreeLookup_zero hlookup
  have hcount : r.iCount = 0 := by rw [hr]; rfl
  have hhashed : r.iHashed = false := by rw [hr]; rfl
  have hsb : r.iSb = .null := by rw [hr]; rfl
  refine ⟨_, r, w', rfl, rfl, hlookup, ?_, ?_, ?_, fun hsame => ?_⟩
  · rw [hcount]
    decide
  · rw [hhashed]
    decide
  · rw [hsb]
    decide
  · have hkept := (onlyPersistent_iff.mp hsame).2.2.1
    rw [hcount] at hkept
    exact absurd hkept (by decide)

end Spfs
