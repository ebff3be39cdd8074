-- SUMMARY: The tree as a finite map from ids to inodes: it is one as long as nothing is inserted.
import Mathlib.Order.Interval.Finset.Nat
import Spfs.Btree.InsertSpec
import Spfs.Mkfs

/-!
# The tree as a map

What the tree is for: a run of insertions stores the first inode of each id, tells
duplicates, and lookups find exactly what was stored. After the first insertion the
tree starts at a block that was allocated for a root but never written. A lookup
that returns 0 there has come to some node with entries, and then every id that the
search of this node does not hit leads out of the block.
-/

namespace Spfs

open EStateM (run_bind_of_ok run_bind_of_error run_bind_eq_ok Within)

/-- A run of insertions with the result of each. -/
def spfsBtreeInsertAll (env : Env) : List SpfsInode → Kernel (List ℤ)
  | [] => return []
  | in_ :: seq => do
    let res ← spfsBtreeInsert env in_
    let rest ← spfsBtreeInsertAll env seq
    return res :: rest

/-- The fields of an inode that its record is to carry agree. -/
structure SamePersistent (i j : SpfsInode) : Prop where
  ino : i.iIno = j.iIno
  mode : i.iMode = j.iMode
  uid : i.iUid = j.iUid
  gid : i.iGid = j.iGid
  atime : i.iAtime = j.iAtime
  mtime : i.iMtime = j.iMtime
  ctime : i.iCtime = j.iCtime
  capacity : i.capacity = j.capacity
  start : i.start = j.start
  name : i.name = j.name

/-- The first inode of an id in a run. -/
def firstOf (seq : List SpfsInode) (ino : ℕ) : Option SpfsInode := seq.find? (·.iIno == ino)

/-- The run of insertions returns, tells new ids from duplicates, and leaves a tree
in which a lookup finds the first inode of every inserted id and no other. -/
structure ActsAsMap (env : Env) (w : World) (seq : List SpfsInode) (results : List ℤ)
    (w' : World) : Prop where
  returns : (spfsBtreeInsertAll env seq).run w = .ok results w'
  fresh : ∀ k in_, seq[k]? = some in_ →
    (results[k]? = some 0 ↔ firstOf (seq.take k) in_.iIno = none)
  lookup : ∀ ino dest, 1 ≤ ino → ino < 2 ^ 32 → ∃ res result w'',
    (spfsBtreeLookup env ino dest).run w' = .ok (res, result) w'' ∧
      (res = 0 ↔ (firstOf seq ino).isSome) ∧
      (res = 0 → ∃ in_, firstOf seq ino = some in_ ∧ SamePersistent result in_)

/-! ## Where the tree goes wrong -/

theorem spfsBtreeInsertAll_rootedFrame (env : Env) (seq : List SpfsInode) :
    Within RootedFrame (spfsBtreeInsertAll env seq) := by
  induction seq with
  | nil => exact Within.pure _
  | cons in_ seq ih =>
    exact (spfsBtreeInsert_rootedFrame env in_).bind fun _ => ih.bind fun _ => Within.pure _

/-- Some id between 1 and `2 ^ 32 - 1` is not hit by the search of a node: the search
looks at less than `2 ^ 28` entries. -/
theorem exists_not_hit {bSize : ℕ} {b : Block} (hsize : bSize < 2 ^ 32) (hlen : 1 ≤ nodeLength b) :
    ∃ ino, 1 ≤ ino ∧ ino < 2 ^ 32 ∧ ∀ j, ¬ HitAt bSize b ino j := by
  let hits := (Finset.range (bSize / 16)).image fun j => idAt b (probe (nodeLength b) j)
  have hcard : hits.card < (Finset.Icc 1 (2 ^ 32 - 1)).card := by
    have hle : hits.card ≤ bSize / 16 :=
      Finset.card_image_le.trans (Finset.card_range _).le
    rw [Nat.card_Icc]
    omega
  obtain ⟨ino, hmem, hnot⟩ := Finset.exists_mem_notMem_of_card_lt_card hcard
  rw [Finset.mem_Icc] at hmem
  refine ⟨ino, hmem.1, by omega, fun j hhit => hnot ?_⟩
  have hj : j < bSize / 16 := by
    have hinside := hhit.inside
    have hpow : j + 1 < 8 ^ (j + 1) := Nat.lt_pow_self (by omega)
    have hmul : 8 ^ (j + 1) ≤ nodeLength b * 8 ^ (j + 1) := Nat.le_mul_of_pos_left _ hlen
    simp only [probe, sizeofBentry] at hinside
    omega
  exact Finset.mem_image.mpr ⟨j, Finset.mem_range.mpr hj, hhit.eq⟩

/-- No tree with a root answers the lookups of all ids once it has found one. -/
theorem exists_lookup_stuck {env : Env} {ino : ℕ} {dest result : SpfsInode} {w w' : World}
    (hio : ∀ t s, env.ioOk t s = true)
    (h : (spfsBtreeLookup env ino dest).run w = .ok (0, result) w') :
    ∃ ino', 1 ≤ ino' ∧ ino' < 2 ^ 32 ∧
      ∀ dest, ∃ f w'', (spfsBtreeLookup env ino' dest).run w = .error f w'' := by
  obtain ⟨offset, s, j, t, hfinds, -, -⟩ := spfsBtreeLookup_zero h
  have hlen : 1 ≤ nodeLength (w.disk s) := Nat.one_le_iff_ne_zero.mpr hfinds.first.length_ne
  obtain ⟨ino', hpos, hlt, hmiss⟩ := exists_not_hit w.bSize_lt hlen
  refine ⟨ino', hpos, hlt, fun dest => ?_⟩
  rw [spfsBtreeLookup, spfsBtreeModify, run_bind_of_ok (EStateM.run_get w)]
  exact spfsBtreeModifyLit_stuck hio hfinds.first hmiss rfl rfl env.fuel

/-- An insertion into the empty tree that returns 0 gives the tree a root. -/
theorem spfsBtreeInsert_start_ne {env : Env} {in_ : SpfsInode} {w w' : World}
    (hstart : w.sbi.tree.start = 0) (hid : in_.iIno % 2 ^ 32 ≠ 0)
    (h : (spfsBtreeInsert env in_).run w = .ok 0 w') : w'.sbi.tree.start ≠ 0 := by
  have hcases := spfsBtreeInsert_first env in_ hstart
  rw [h] at hcases
  cases hcases with
  | zeroId _ _ hzero => exact absurd hzero hid
  | inserted _ _ _ hroot _ _ _ hlogs =>
    rw [hlogs.onlyLogs.sbi]
    exact hroot

/-- A run that inserts anything into the empty tree does not act as a map. -/
theorem not_actsAsMap {env : Env} {w w' : World} {in_ : SpfsInode} {seq : List SpfsInode}
    {results : List ℤ} (hio : ∀ t s, env.ioOk t s = true) (hstart : w.sbi.tree.start = 0)
    (hid : 1 ≤ in_.iIno ∧ in_.iIno < 2 ^ 32) : ¬ ActsAsMap env w (in_ :: seq) results w' := by
  intro hmap
  have hreturns := hmap.returns
  rw [spfsBtreeInsertAll, run_bind_eq_ok] at hreturns
  obtain ⟨res, w₁, hfirst, hreturns⟩ := hreturns
  rw [run_bind_eq_ok] at hreturns
  obtain ⟨rest, w₂, hrest, hreturns⟩ := hreturns
  cases hreturns
  -- the first call returns 0, so the tree has a root from there on
  have hres : res = 0 := by
    have := (hmap.fresh 0 in_ rfl).mpr rfl
    simpa using this
  rw [hres] at hfirst
  have hroot := spfsBtreeInsert_start_ne hstart (by omega) hfirst
  -- the lookup of the first id returns 0, and then some other one does not return
  obtain ⟨res', result, w₃, hlookup, hzero, -⟩ := hmap.lookup in_.iIno in_ hid.1 hid.2
  have hres' : res' = 0 := hzero.mpr (by simp [firstOf])
  rw [hres'] at hlookup
  obtain ⟨ino, hpos, hlt, hstuck⟩ := exists_lookup_stuck hio hlookup
  obtain ⟨_, _, _, hlookup', -⟩ := hmap.lookup ino in_ hpos hlt
  obtain ⟨f, w₄, hfault⟩ := hstuck in_
  rw [hfault] at hlookup'
  cases hlookup'

/-- The empty tree acts as the empty map. -/
theorem actsAsMap_nil {env : Env} {w : World} (hstart : w.sbi.tree.start = 0) :
    ActsAsMap env w [] [] w where
  returns := rfl
  fresh := by simp
  lookup ino dest _ _ := by
    refine ⟨1, dest, w, ?_, by simp [firstOf], by simp⟩
    rw [spfsBtreeLookup, spfsBtreeModify, run_bind_of_ok (EStateM.run_get w), hstart]
    cases env.fuel <;> rfl

/-- The tree implements a finite map for the empty run of insertions only. -/
theorem spfsBtree_actsAsMap_iff {env : Env} {w : World} {seq : List SpfsInode}
    (hio : ∀ t s, env.ioOk t s = true) (hstart : w.sbi.tree.start = 0)
    (hids : ∀ in_ ∈ seq, 1 ≤ in_.iIno ∧ in_.iIno < 2 ^ 32) :
    (∃ results w', ActsAsMap env w seq results w') ↔ seq = [] := by
  constructor
  · rintro ⟨results, w', hmap⟩
    cases seq with
    | nil => rfl
    | cons in_ seq => exact absurd hmap (not_actsAsMap hio hstart (hids in_ List.mem_cons_self))
  · rintro rfl
    exact ⟨[], w, actsAsMap_nil hstart⟩

theorem spfsBtree_actsAsMap_iff_fresh :
    (∃ results w', ActsAsMap (.calm 9) freshWorld [plainFile 1, plainFile 2] results w') ↔
      [plainFile 1, plainFile 2] = [] :=
  spfsBtree_actsAsMap_iff (fun _ _ => rfl) rfl (by simp [plainFile])

/-- On a fresh device not even one inode can be stored and found. -/
theorem not_actsAsMap_fresh :
    freshWorld.sbi.tree.start = 0 ∧ (∀ t s, (Env.calm 9).ioOk t s = true) ∧
      freshWorld.sbi.freeList = ⟨100, [⟨2, 100⟩]⟩ ∧
      ¬ ∃ results w', ActsAsMap (.calm 9) freshWorld [plainFile 1] results w' := by
  refine ⟨rfl, fun _ _ => rfl, rfl, ?_⟩
  rintro ⟨results, w', hmap⟩
  exact not_actsAsMap (fun _ _ => rfl) rfl (by decide) hmap

end Spfs
