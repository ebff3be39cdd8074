-- SUMMARY: The law of the namespace over runs of successful calls, and the runs in which lookups follow it.
import Spfs.Namespace.Failure
import Spfs.Namespace.Lookup

/-!
# The law of the namespace

After any calls that succeeded, a lookup should find the inode that was created under a name
in a directory, and nothing under other names. The first inode is the only one that a mounted
device takes in. It is found while it is in the cache; what comes back from the tree is
another matter.
-/

namespace Spfs

/-- An inode that was created, with its directory and its name. -/
structure Made where
  dir : ℕ
  name : List UInt8
  id : ℕ

def IsName (name : List UInt8) : Prop := name ≠ [] ∧ 0 ∉ name

/-- The inode that was created under a name. -/
def inodeOf (made : List Made) (p : ℕ) (name : List UInt8) : Option ℕ :=
  (made.find? fun m => m.dir == p && m.name == name).map Made.id

/-- The directories that are known after a call. -/
def CreateOp.dirs (op : CreateOp) (id : ℕ) (dirs : Set ℕ) : Set ℕ :=
  match op with
  | create => dirs
  | mkdir => insert id dirs

/-- The states that successful calls lead to, each of which meets a condition, with the
directories in use and what was created. An inode that is not dirty may leave the cache. -/
inductive Builds (env : Env) (C : CreateOp → List UInt8 → World → Prop) (w₀ : World) (dirs₀ : Set ℕ) :
    Set ℕ → List Made → World → Prop where
  | start : Builds env C w₀ dirs₀ dirs₀ [] w₀
  | created {op : CreateOp} {dirs : Set ℕ} {made : List Made} {w w' : World} {p mode id : ℕ}
      {name : List UInt8} : Builds env C w₀ dirs₀ dirs made w → p ∈ dirs → IsName name →
      (∀ m ∈ made, m.dir = p → m.name ≠ name) → C op name w →
      (op.run env p ⟨name, none⟩ mode).run w = .ok (0, ⟨name, some id⟩) w' →
      Builds env C w₀ dirs₀ (op.dirs id dirs) (⟨p, name, id⟩ :: made) w'
  | evicted {dirs : Set ℕ} {made : List Made} {w : World} {q : ℕ} {i : SpfsInode} :
      Builds env C w₀ dirs₀ dirs made w → w.inodes q = some i → i.iDirty = false →
      Builds env C w₀ dirs₀ (dirs \ {q}) made (w.evict q)

/-- Lookups in the directory find what was created there and nothing else. -/
def FollowsLaw (env : Env) (made : List Made) (p : ℕ) (w : World) : Prop :=
  ∀ name, IsName name →
    ∃ w', (spfsInodeByName env p ⟨name, none⟩).run w = .ok (inodeOf made p name) w'

/-- The name leaves room for a zero, the id fits in a slot of a directory, and a new
directory is made from an object without blocks whose lock is free. -/
structure KeepsName (env : Env) (op : CreateOp) (name : List UInt8) (w : World) : Prop where
  room : name.length < spookyFsNameMax
  id_pos : 0 < w.sbi.id
  id_lt : w.sbi.id < 2 ^ 32
  object : op = .mkdir → ∀ k, env.slabPick w.time = some k →
    (w.slab[k]?.getD spfsInodeInitOnce).start = 0 ∧ (w.slab[k]?.getD spfsInodeInitOnce).lock = false

/-- What was created in the directory is in the cache, or the search of the root hits a
record that has the name. -/
def ReloadsNames (env : Env) (made : List Made) (p : ℕ) (w : World) : Prop :=
  ∀ m ∈ made, m.dir = p → w.inodes m.id = none → ∃ offset, HitsRecord w m.id offset ∧
    SetsUp (parsedInode (env.junk (w.time + 6)) (w.disk offset)) ∧
    SpellsName (parsedInode (env.junk (w.time + 6)) (w.disk offset)).name.val m.name

/-- A directory in the cache that has no blocks. -/
def EmptyDir (w : World) (p : ℕ) : Prop :=
  ∃ i, w.inodes p = some i ∧ Usable i ∧ i.start = 0

/-- A directory in the cache that has one child. -/
def OneChild (w : World) (p id : ℕ) : Prop :=
  ∃ i s, w.inodes p = some i ∧ Usable i ∧ DirLists w.bSize w.disk i.start [(s, [id])]

/-- The child, if it is in the cache, is found there by its id and has its name. -/
def CachedAs (w : World) (m : Made) : Prop :=
  ∀ j, w.inodes m.id = some j → j.isCached m.id = true ∧ j.iNew = false ∧ SpellsName j.name.val m.name

/-- What a run can come to: nothing was created yet, or one inode, and then the tree has a
root. -/
inductive Namespace (dirs : Set ℕ) : List Made → World → Prop where
  | empty {w : World} : (∀ p ∈ dirs, EmptyDir w p) → Namespace dirs [] w
  | one {m : Made} {w : World} : w.sbi.tree.start ≠ 0 → m.dir ≠ m.id → 0 ∉ m.name →
      (m.dir ∈ dirs → OneChild w m.dir m.id) → (∀ p ∈ dirs, p ≠ m.dir → EmptyDir w p) →
      CachedAs w m → Namespace dirs [m] w

section Steps

variable {env : Env} {op : CreateOp} {p mode id : ℕ} {w w' : World} {dir : SpfsInode} {name : List UInt8}

/-- A new block with one child lists it. -/
theorem dirLists_first {bSize s : ℕ} {disk : ℕ → Block} {b : Block} (hsize : 512 ≤ bSize) (hs : s ≠ 0)
    (hid : 0 < id) (hlt : id < 2 ^ 32) (hdisk : disk s = withChild bSize ⟨0, 0⟩ id (withDir ⟨0, 0⟩ b)) :
    DirLists bSize disk s [(s, [id])] := by
  have hempty : DirAt (withDir ⟨0, 0⟩ b) ⟨0, 0⟩ :=
    dirAt_withDir _ (Nat.two_pow_pos 32) (Nat.two_pow_pos 32)
  have hdir : DirAt (disk s) ⟨0, 1⟩ := by
    rw [hdisk]
    exact dirAt_withChild hempty _ _
  have hword : beDecode ((disk s).read 12 4) = id := by
    have hfits : 12 + (⟨0, 0⟩ : DirBlock).children * 8 + 8 ≤ bSize := by
      show 12 + 0 * 8 + 8 ≤ bSize
      omega
    have heq := (holdsChild_withChild (b := withDir ⟨0, 0⟩ b) hfits id).eq
    rw [hdisk]
    exact heq.trans (Nat.mod_eq_of_lt hlt)
  have hentries : entriesFrom bSize (disk s) 12 =
      beDecode ((disk s).read 12 4) :: entriesFrom bSize (disk s) 16 :=
    entriesFrom_of_ne_zero (by omega) (by rw [hword]; omega)
  rw [hword] at hentries
  have hcount : (⟨0, 1⟩ : DirBlock).children ≤ (entriesFrom bSize (disk s) 12).length := by
    rw [hentries]
    exact Nat.succ_le_succ (Nat.zero_le _)
  have hcons := DirLists.cons hs hdir hcount .nil
  rw [hentries] at hcons
  exact hcons

/-- What the first call leaves. -/
structure MakesFirst (op : CreateOp) (env : Env) (dir : SpfsInode) (mode p id : ℕ) (name : List UInt8)
    (w w' : World) : Prop where
  id_eq : id = w.sbi.id
  rooted : w'.sbi.tree.start ≠ 0
  ne : p ≠ id
  free : w.inodes id = none
  child : OneChild w' p id
  others : ∀ q ≠ p, q ≠ id → w'.inodes q = w.inodes q
  object : ∃ k h, GetsInode op env mode w k ∧ w'.inodes id = some (createdInode env dir mode w k name h)

theorem Usable.linked (h : Usable dir) (op : CreateOp) (s : ℕ) :
    Usable { (op.linked dir).withOneMore with start := s } := by
  cases op <;> exact ⟨h.sb, h.dir, h.unlocked⟩

/-- The first call that succeeds, in a directory without blocks. -/
theorem makesFirst (hp : w.inodes p = some dir) (husable : Usable dir) (hstart : dir.start = 0)
    (hkeeps : KeepsName env op name w)
    (hrun : (op.run env p ⟨name, none⟩ mode).run w = .ok (0, ⟨name, some id⟩) w') :
    MakesFirst op env dir mode p id name w w' := by
  have hend := op.run_ends env ⟨name, none⟩ mode hp husable.sb
  rw [hrun] at hend
  cases hend with
  | @added k _ w₁ _ h hgets htakes htaken hlock hcall =>
    have hne := hgets.ne hp
    obtain ⟨hpos, hlt⟩ : 0 < w.sbi.id ∧ w.sbi.id < 2 ^ 32 := ⟨hkeeps.id_pos, hkeeps.id_lt⟩
    have hid : w.sbi.id % 2 ^ 32 ≠ 0 := by omega
    have hlinked : (op.linked dir).start = 0 := by cases op <;> exact hstart
    have hsbi : w₁.sbi.tree.start ≠ 0 := by
      have hroot := (htakes.root (by rw [createdInode_iIno h]; exact hid)).1
      rw [htaken.sbi, superAfterInsert, createdInode_iIno h, if_neg hid]
      exact hroot
    generalize hplace : placeIn env (w₁.setInode p (op.linked dir)) (op.linked dir) = place at hcall
    cases hcall with
    | slot => exact absurd hlinked (start_ne_of_slot hplace)
    | @fresh s _ hs hsel hstep hbal =>
      have hother (q : ℕ) (hq : q ≠ p) : w'.inodes q =
          (createdWorld env dir mode w k name h).inodes q := by
        rw [hstep.others q hq, World.setInode_inodes, Function.update_of_ne hq, htaken.inodes]
      refine ⟨rfl, ?_, hne, hgets.free, ?_, fun q hq hqid => ?_, k, h, hgets, ?_⟩
      · rw [hstep.sbi]
        exact hsbi
      · refine ⟨{ (op.linked dir).withOneMore with start := s }, s, ?_, husable.linked op s, ?_⟩
        · rw [hstep.inodes]
          exact Function.update_self _ _ _
        · refine dirLists_first (b := w₁.disk s) w'.le_bSize hs hpos hlt ?_
          rw [hstep.disk, Function.update_self, hstep.bSize]
          rfl
      · rw [hother q hq]
        exact Function.update_of_ne hqid _ _
      · rw [hother _ hne.symm]
        exact Function.update_self _ _ _

/-- The new inode is found by its id and has its name. -/
theorem cachedAs_created {k : ℕ} {i : SpfsInode} (h : name.length ≤ spookyFsNameMax)
    (hroom : name.length < spookyFsNameMax) (hid : id = w.sbi.id)
    (hi : i = createdInode env dir mode w k name h) :
    i.isCached id = true ∧ i.iNew = false ∧ SpellsName i.name.val name := by
  subst hi
  have hhashed : (createdInode env dir mode w k name h).iHashed = true ∧
      (createdInode env dir mode w k name h).iSb = .sb := by
    rw [createdInode, bornInode]
    unfold inodeInitOwner
    split <;> exact ⟨rfl, rfl⟩
  refine ⟨?_, rfl, spells_nameArray h hroom⟩
  have hino : (createdInode env dir mode w k name h).iIno = w.sbi.id := @createdInode_iIno _ _ _ _ _ ⟨name, none⟩ h
  rw [SpfsInode.isCached, hhashed.1, hhashed.2, hino, hid]
  simp

/-- A new directory has no blocks. -/
theorem usable_created {k : ℕ} (h : name.length ≤ spookyFsNameMax)
    (hgets : GetsInode .mkdir env mode w k) (hkeeps : KeepsName env .mkdir name w) :
    Usable (createdInode env dir mode w k name h) ∧ (createdInode env dir mode w k name h).start = 0 := by
  obtain ⟨hstart, hlock⟩ := hkeeps.object rfl k hgets.pick
  set obj := w.slab[k]?.getD spfsInodeInitOnce
  obtain ⟨-, hkind⟩ := kind_inodeInitOwner env dir (newObject w.sbi.id obj) mode
  have hkept : (inodeInitOwner env dir mode (newObject w.sbi.id obj)).iSb = .sb ∧
      (inodeInitOwner env dir mode (newObject w.sbi.id obj)).lock = obj.lock ∧
      (inodeInitOwner env dir mode (newObject w.sbi.id obj)).start = obj.start := by
    unfold inodeInitOwner
    split <;> exact ⟨rfl, rfl, rfl⟩
  exact ⟨⟨hkept.1, hkind.trans hgets.kind, hkept.2.1.trans hlock⟩, hkept.2.2.trans hstart⟩

end Steps

/-! ## Runs -/

section Runs

variable {env : Env} {op : CreateOp} {dirs dirs₀ : Set ℕ} {made : List Made} {p mode id : ℕ}
  {w w' w₀ : World} {name : List UInt8}

/-- A call that succeeds creates the first inode. -/
theorem Namespace.created (h : Namespace dirs made w) (hp : p ∈ dirs) (hname : IsName name)
    (hkeeps : KeepsName env op name w)
    (hrun : (op.run env p ⟨name, none⟩ mode).run w = .ok (0, ⟨name, some id⟩) w') :
    Namespace (op.dirs id dirs) (⟨p, name, id⟩ :: made) w' := by
  cases h with
  | empty hempty =>
    obtain ⟨dir, hdir, husable, hstart⟩ := hempty p hp
    have hfirst := makesFirst hdir husable hstart hkeeps hrun
    obtain ⟨k, hlen, hgets, hobject⟩ := hfirst.object
    refine .one hfirst.rooted hfirst.ne hname.2 (fun _ => hfirst.child) (fun q hq hne => ?_) ?_
    · by_cases hqid : q = id
      · subst hqid
        cases op with
        | create =>
          -- an inode without a number is no known directory
          obtain ⟨i, hi, -⟩ := hempty q hq
          exact absurd (hi.symm.trans hfirst.free) (by simp)
        | mkdir => exact ⟨_, hobject, usable_created hlen hgets hkeeps⟩
      · have hq' : q ∈ dirs := by
          cases op with
          | create => exact hq
          | mkdir => exact Or.resolve_left hq hqid
        obtain ⟨i, hi, hused⟩ := hempty q hq'
        exact ⟨i, (hfirst.others q hne hqid).trans hi, hused⟩
    · intro j hj
      have hj' : j = createdInode env dir mode w k name hlen := Option.some.inj (hj.symm.trans hobject)
      exact cachedAs_created hlen hkeeps.room hfirst.id_eq hj'
  | @one m _ hrooted _ _ hone hempty =>
    -- a tree with a root takes in no inode
    have hdir : ∃ dir, w.inodes p = some dir ∧ Usable dir := by
      by_cases hat : p = m.dir
      · subst hat
        obtain ⟨dir, -, hdir, husable, -⟩ := hone hp
        exact ⟨dir, hdir, husable⟩
      · obtain ⟨dir, hdir, husable, -⟩ := hempty p hp hat
        exact ⟨dir, hdir, husable⟩
    obtain ⟨dir, hdir, husable⟩ := hdir
    have hend := op.run_ends env ⟨name, none⟩ mode hdir husable.sb
    rw [hrun] at hend
    cases hend with
    | added _ _ htakes => exact absurd htakes.start hrooted

/-- An inode that leaves the cache. -/
theorem Namespace.evicted (h : Namespace dirs made w) (q : ℕ) : Namespace (dirs \ {q}) made (w.evict q) := by
  have hstore := sameStore_evict w q
  have hother (p : ℕ) (hp : p ∈ dirs \ {q}) : (w.evict q).inodes p = w.inodes p := by
    rw [World.evict_inodes]
    exact Function.update_of_ne hp.2 _ _
  cases h with
  | empty hempty =>
    refine .empty fun p hp => ?_
    obtain ⟨i, hi, hused⟩ := hempty p hp.1
    exact ⟨i, (hother p hp).trans hi, hused⟩
  | @one m _ hrooted hne hname hone hempty hcached =>
    refine .one ?_ hne hname (fun hp => ?_) (fun p hp hpm => ?_) fun j hj => ?_
    · rw [hstore.sbi]
      exact hrooted
    · obtain ⟨i, s, hi, husable, hlists⟩ := hone hp.1
      refine ⟨i, s, (hother m.dir hp).trans hi, husable, ?_⟩
      rw [hstore.disk, hstore.bSize]
      exact hlists
    · obtain ⟨i, hi, hused⟩ := hempty p hp.1 hpm
      exact ⟨i, (hother p hp).trans hi, hused⟩
    · rw [World.evict_inodes] at hj
      by_cases hq : m.id = q
      · rw [hq, Function.update_self] at hj
        cases hj
      · rw [Function.update_of_ne hq] at hj
        exact hcached j hj

/-- What every run comes to. -/
theorem Builds.namespace (hdirs : ∀ p ∈ dirs₀, EmptyDir w₀ p)
    (h : Builds env (KeepsName env) w₀ dirs₀ dirs made w) : Namespace dirs made w := by
  induction h with
  | start => exact .empty hdirs
  | created _ hp hname _ hkeeps hrun ih => exact ih.created hp hname hkeeps hrun
  | evicted _ _ _ ih => exact ih.evicted _

end Runs

/-! ## Lookups -/

section Lookups

variable {env env' : Env} {dirs dirs₀ : Set ℕ} {made : List Made} {p : ℕ} {w w₀ : World}

theorem inodeOf_one (m : Made) (p : ℕ) (name : List UInt8) :
    inodeOf [m] p name = if m.dir = p ∧ name = m.name then some m.id else none := by
  rw [inodeOf, List.find?_singleton]
  by_cases h : m.dir = p ∧ name = m.name
  · obtain ⟨rfl, rfl⟩ := h
    simp
  · rw [if_neg h, if_neg fun heq => h ?_]
    · rfl
    · simp only [Bool.and_eq_true, beq_iff_eq] at heq
      exact ⟨heq.1, heq.2.symm⟩

/-- The lookup of a name in the directory of the only inode that was created. -/
theorem followsLaw_one {m : Made} {dir : SpfsInode} {s : ℕ} (hio : ∀ t s, env.ioOk t s = true)
    (hslab : ∀ t, env.slabPick t ≠ none) (hfuel : env.fuel ≠ 0) (hne : m.dir ≠ m.id)
    (hname : 0 ∉ m.name) (hdir : w.inodes m.dir = some dir) (husable : Usable dir)
    (hlists : DirLists w.bSize w.disk dir.start [(s, [m.id])]) (hcached : CachedAs w m)
    (hreloads : ReloadsNames env [m] m.dir w) : FollowsLaw env [m] m.dir w := by
  intro name hasked
  have hsame : (visitingWorld w m.dir dir).inodes m.id = w.inodes m.id :=
    Function.update_of_ne hne.symm _ _
  -- the child is in the cache or it is loaded, and then its name is compared
  have hfound : ∃ i w₁, (spfsInodeById env m.id).run (visitingWorld w m.dir dir) =
      .ok (.ok (some m.id)) w₁ ∧ w₁.inodes m.id = some i ∧ SpellsName i.name.val m.name := by
    cases hat : w.inodes m.id with
    | some i =>
      obtain ⟨hin, hnew, hspells⟩ := hcached i hat
      exact ⟨{ i with iCount := i.iCount + 1 }, _, run_spfsInodeById_cached (hsame.trans hat) hin hnew,
        Function.update_self _ _ _, hspells⟩
    | none =>
      obtain ⟨offset, hhit, hsets, hspells⟩ := hreloads m List.mem_cons_self rfl hat
      obtain ⟨k, hpick⟩ := Option.ne_none_iff_exists'.mp (hslab (visitingWorld w m.dir dir).time)
      have hhit' : HitsRecord (visitingWorld w m.dir dir) m.id offset := hhit.congr rfl rfl rfl hhit.magic
      have htime : (visitingWorld w m.dir dir).time + 4 = w.time + 6 := rfl
      have hdisk : (visitingWorld w m.dir dir).disk offset = w.disk offset := rfl
      have hloaded := run_spfsInodeById_record hio hfuel (hsame.trans hat) hpick hhit'
      rw [htime, hdisk] at hloaded
      obtain ⟨i, w₁, hrun, hi, hread⟩ := hloaded hsets
      exact ⟨i, w₁, hrun, hi, by rw [hread]; exact hspells⟩
  obtain ⟨i, w₁, hrun, hi, hspells⟩ := hfound
  obtain ⟨r, hcmp, heq⟩ := strcmp_spells hspells hname hasked.2
  obtain ⟨w', hby⟩ : ∃ w', (spfsInodeByName env m.dir ⟨name, none⟩).run w =
      .ok (if r = 0 then some m.id else none) w' :=
    run_spfsInodeByName_one hio hfuel hdir husable hlists hrun hi hcmp
  refine ⟨w', hby.trans ?_⟩
  rw [inodeOf_one]
  congr 1
  by_cases hr : r = 0
  · rw [if_pos hr, if_pos ⟨rfl, heq.mp hr⟩]
  · rw [if_neg hr, if_neg fun h => hr (heq.mpr h.2)]

/-- After every run whose calls keep the names, the lookups in a directory follow the law,
when what was created there is in the cache or has a record with its name. -/
theorem spfsInodeByName_followsLaw (hio : ∀ t s, env'.ioOk t s = true)
    (hslab : ∀ t, env'.slabPick t ≠ none) (hfuel : env'.fuel ≠ 0) (hdirs : ∀ p ∈ dirs₀, EmptyDir w₀ p)
    (h : Builds env (KeepsName env) w₀ dirs₀ dirs made w) (hp : p ∈ dirs)
    (hreloads : ReloadsNames env' made p w) : FollowsLaw env' made p w := by
  have hempty (hdir : EmptyDir w p) (hnone : ∀ name, inodeOf made p name = none) :
      FollowsLaw env' made p w := by
    intro name _
    obtain ⟨i, hi, husable, hstart⟩ := hdir
    rw [hnone]
    exact run_spfsInodeByName_empty hi husable hstart
  cases h.namespace hdirs with
  | empty hall => exact hempty (hall p hp) fun _ => rfl
  | @one m _ _ hne hname hone hall hcached =>
    by_cases hat : p = m.dir
    · subst hat
      obtain ⟨dir, s, hdir, husable, hlists⟩ := hone hp
      exact followsLaw_one hio hslab hfuel hne hname hdir husable hlists hcached hreloads
    · refine hempty (hall p hp hat) fun name => ?_
      rw [inodeOf_one, if_neg fun h => hat h.1.symm]

end Lookups

/-! ## A file that is loaded again -/

section FirstFile

variable {env : Env} {op : CreateOp} {p k mode : ℕ} {w : World} {dir : SpfsInode} {name : List UInt8}

/-- The block for the first child of a directory, once an inode is stored. -/
def childPage (w : World) : ℕ := (spfsFreeAlloc (listAfterRoot w) 1).1

/-- The first call, with blocks for the tree and for the directory. -/
theorem createOp_first (hp : w.inodes p = some dir) (husable : Usable dir) (hstart : dir.start = 0)
    (hlen : name.length ≤ spookyFsNameMax) (hgets : GetsInode op env mode w k)
    (hstores : StoresNext env w) (hid : w.sbi.id % 2 ^ 32 ≠ 0) (hpage : childPage w ≠ 0)
    (hread : env.ioOk (w.time + 11) (childPage w) = true) :
    ∃ w', (op.run env p ⟨name, none⟩ mode).run w = .ok (0, ⟨name, some w.sbi.id⟩) w' ∧
      w'.bSize = w.bSize ∧ w'.sbi.tree.start = rootPage w ∧
      ∀ s ≠ 0, s ≠ recordPage w → s ≠ childPage w → w'.disk s = w.disk s := by
  have htakes : TakesIn env (createdInode env dir mode w k name hlen)
      (createdWorld env dir mode w k name hlen) := (@takesIn_iff _ _ _ _ _ ⟨name, none⟩ hlen).mpr hstores
  have hplace : placeAfter env w dir (createdInode env dir mode w k name hlen) = .fresh (childPage w) := by
    rw [placeAfter, if_neg hid, hstart, addPlace_zero, endPlace]
    exact if_pos ⟨hpage, hread⟩
  have hend := op.run_ends env ⟨name, none⟩ mode hp husable.sb
  generalize (op.run env p ⟨name, none⟩ mode).run w = r at hend ⊢
  cases hend with
  | wrongKind hkind => exact absurd (hkind.symm.trans hgets.kind) (by decide)
  | tooLong _ hlong => exact absurd hlen (Nat.not_le.mpr hlong)
  | busy _ htaken => exact absurd hgets.free htaken
  | noInode _ _ hnone => exact absurd hnone hgets.not_noNewInode
  | refused _ _ hgets' htakes' =>
    obtain rfl := hgets.unique hgets'
    exact absurd htakes htakes'
  | insertFault _ hgets' htakes' =>
    obtain rfl := hgets.unique hgets'
    exact absurd htakes htakes'
  | held _ hlock => exact absurd (hlock.symm.trans husable.unlocked) (by decide)
  | addFault _ hgets' htaken hcall =>
    obtain rfl := hgets.unique hgets'
    rw [placeIn_taken hlen htaken, hplace] at hcall
    cases hcall
  | @added _ _ w₁ w' _ hgets' _ htaken _ hcall =>
    obtain rfl := hgets.unique hgets'
    rw [placeIn_taken hlen htaken, hplace] at hcall
    cases hcall with
    | fresh _ _ hstep _ =>
      have hino : (createdInode env dir mode w k name hlen).iIno = w.sbi.id :=
        @createdInode_iIno _ _ _ _ _ ⟨name, none⟩ hlen
      refine ⟨w', rfl, hstep.bSize.trans htaken.bSize, ?_, fun s hs hrecord hchild => ?_⟩
      · rw [hstep.sbi]
        show w₁.sbi.tree.start = rootPage w
        rw [htaken.sbi, superAfterInsert, hino, if_neg hid]
        rfl
      · rw [hstep.disk, Function.update_of_ne hchild]
        show w₁.disk s = w.disk s
        rw [htaken.disk s hs]
        exact Function.update_of_ne hrecord _ _

/-- The walk through a root without entries, below which there is nothing. -/
theorem run_spfsBtreeLookup_emptyRoot {ino : ℕ} (hio : ∀ t s, env.ioOk t s = true) (hfuel : env.fuel ≠ 0)
    (hstart : w.sbi.tree.start ≠ 0) (hempty : nodeLength (w.disk w.sbi.tree.start) = 0)
    (hchild : childAt (w.disk w.sbi.tree.start) 0 = 0) (hfits : childrenOff + 8 ≤ w.bSize)
    (dest : SpfsInode) : ∃ w', (spfsBtreeLookup env ino dest).run w = .ok (1, dest) w' := by
  obtain ⟨fuel, hstep⟩ := rootStep ino dest spfsBtreeLookupCb hfuel hstart
  rw [spfsBtreeLookup]
  generalize (spfsBtreeModify env ino dest spfsBtreeLookupCb).run w = r at hstep ⊢
  cases hstep with
  | unread hread => simp [hio] at hread
  | stuck _ hstuck =>
    rcases hstuck with hover | ⟨-, hout⟩ | ⟨hlen, -⟩
    · exact absurd hempty (by omega)
    · exact absurd hfits hout
    · exact absurd hempty (Nat.ne_of_gt hlen)
  | down =>
    rw [hchild]
    cases fuel <;> exact ⟨_, rfl⟩
  | hit _ hlen => exact absurd hempty (Nat.ne_of_gt hlen)

/-- The first file of a device. Its root is a block that was never written. -/
theorem spfsCreate_first :
    ∃ w', (spfsCreate (.calm 9) 1 ⟨[97], none⟩ S_IFREG).run rootWorld = .ok (0, ⟨[97], some 2⟩) w' ∧
      w'.bSize = 4096 ∧ w'.sbi.tree.start = 100 ∧ w'.disk 100 = rootWorld.disk 100 := by
  have hgets : GetsInode .create (.calm 9) S_IFREG rootWorld 0 := ⟨rfl, rfl, rfl⟩
  have hstores : StoresNext (.calm 9) rootWorld := ⟨rfl, by decide, rfl, fun _ => by decide⟩
  have hdir : rootWorld.inodes 1 = some (plainDir 1) := rfl
  have hname : ([97] : List UInt8).length ≤ spookyFsNameMax := by decide
  obtain ⟨w', hrun, hbSize, hroot, hdisk⟩ := createOp_first hdir ⟨rfl, rfl, rfl⟩ rfl hname hgets hstores
    (by decide) (by decide) rfl
  exact ⟨w', hrun, hbSize, hroot, hdisk 100 (by decide) (by decide) (by decide)⟩

theorem emptyDir_rootWorld : ∀ p ∈ ({1} : Set ℕ), EmptyDir rootWorld p := by
  rintro p rfl
  exact ⟨plainDir 1, rfl, ⟨rfl, rfl, rfl⟩, rfl⟩

theorem keepsName_rootWorld : KeepsName (.calm 9) .create [97] rootWorld :=
  ⟨by decide, by decide, by decide, nofun⟩

/-- The first file of a device is found while it is in the cache. -/
theorem spfsInodeByName_followsLaw_first :
    ∃ w', (spfsCreate (.calm 9) 1 ⟨[97], none⟩ S_IFREG).run rootWorld = .ok (0, ⟨[97], some 2⟩) w' ∧
      FollowsLaw (.calm 9) [⟨1, [97], 2⟩] 1 w' := by
  obtain ⟨w', hrun, -⟩ := spfsCreate_first
  have hdir : rootWorld.inodes 1 = some (plainDir 1) := rfl
  have hfirst : MakesFirst .create (.calm 9) (plainDir 1) S_IFREG 1 2 [97] rootWorld w' :=
    makesFirst hdir ⟨rfl, rfl, rfl⟩ rfl keepsName_rootWorld hrun
  obtain ⟨k, h, -, hcached⟩ := hfirst.object
  have hmem : 1 ∈ ({1} : Set ℕ) := rfl
  have hbuilds : Builds (.calm 9) (KeepsName (.calm 9)) rootWorld {1} {1} [⟨1, [97], 2⟩] w' :=
    .created .start hmem ⟨by decide, by decide⟩ nofun keepsName_rootWorld hrun
  refine ⟨w', hrun, spfsInodeByName_followsLaw (fun _ _ => rfl) (fun _ => nofun) (by decide)
    emptyDir_rootWorld hbuilds rfl fun m hm _ hnone => ?_⟩
  obtain rfl := List.mem_singleton.mp hm
  exact absurd (hcached.symm.trans hnone) (by simp)

/-- Once it has left the cache, a lookup in its directory follows the null pointer. -/
theorem not_followsLaw_reloaded :
    ∃ w', Builds (.calm 9) (fun _ _ _ => True) rootWorld {1} ({1} \ {2}) [⟨1, [97], 2⟩] w' ∧
      1 ∈ ({1} \ {2} : Set ℕ) ∧ IsName [97] ∧
      (∃ w'', (spfsInodeByName (.calm 9) 1 ⟨[97], none⟩).run w' = .error .nullDeref w'') ∧
      ¬ FollowsLaw (.calm 9) [⟨1, [97], 2⟩] 1 w' := by
  obtain ⟨w₁, hrun, hbSize, hroot, hdisk⟩ := spfsCreate_first
  have hdir : rootWorld.inodes 1 = some (plainDir 1) := rfl
  have hfirst : MakesFirst .create (.calm 9) (plainDir 1) S_IFREG 1 2 [97] rootWorld w₁ :=
    makesFirst hdir ⟨rfl, rfl, rfl⟩ rfl keepsName_rootWorld hrun
  obtain ⟨k, h, -, hcached⟩ := hfirst.object
  obtain ⟨dir, s, hp, husable, hlists⟩ := hfirst.child
  have hmem : 1 ∈ ({1} : Set ℕ) := rfl
  have hbuilds : Builds (.calm 9) (fun _ _ _ => True) rootWorld {1} ({1} \ {2}) [⟨1, [97], 2⟩]
      (w₁.evict 2) :=
    .evicted (.created .start hmem ⟨by decide, by decide⟩ nofun trivial hrun) hcached rfl
  have hstore := sameStore_evict w₁ 2
  have hp' : (w₁.evict 2).inodes 1 = some dir := by
    rw [World.evict_inodes]
    exact hp
  have hlists' : DirLists (w₁.evict 2).bSize (w₁.evict 2).disk dir.start [(s, [2])] := by
    rw [hstore.disk, hstore.bSize]
    exact hlists
  set w₂ := visitingWorld (w₁.evict 2) 1 dir with hw₂
  have hfree : w₂.inodes 2 = none := by
    rw [hw₂]
    show Function.update (w₁.evict 2).inodes 1 (some { dir with lock := true }) 2 = none
    rw [Function.update_of_ne (by decide), World.evict_inodes]
    exact Function.update_self _ _ _
  have hstart : w₂.sbi.tree.start = 100 := (congrArg (·.tree.start) hstore.sbi).trans hroot
  have hnode : w₂.disk w₂.sbi.tree.start = rootWorld.disk 100 := by
    rw [hstart]
    exact (congrFun hstore.disk 100).trans hdisk
  have hfits : childrenOff + 8 ≤ w₂.bSize := by
    have hsize : w₂.bSize = 4096 := hstore.bSize.trans hbSize
    rw [hsize]
    decide
  have hlookup : ∃ w₃, (spfsInodeById (.calm 9) 2).run w₂ = .ok (.ok none) w₃ := by
    refine run_spfsInodeById_absent hfree rfl fun dest => ?_
    have hroot₂ : (withNewObject w₂ 2 w₂.time).sbi.tree.start ≠ 0 := by
      show w₂.sbi.tree.start ≠ 0
      rw [hstart]
      decide
    obtain ⟨w₃, hrun⟩ : ∃ w₃, (spfsBtreeLookup (.calm 9) 2 dest).run (withNewObject w₂ 2 w₂.time) =
        .ok (1, dest) w₃ :=
      run_spfsBtreeLookup_emptyRoot (fun _ _ => rfl) (by decide) hroot₂
        ((congrArg nodeLength hnode).trans (by decide))
        ((congrArg (childAt · 0) hnode).trans (by decide)) hfits dest
    exact ⟨1, w₃, by decide, hrun⟩
  obtain ⟨w₃, hlookup⟩ := hlookup
  have hby : (spfsInodeByName (.calm 9) 1 ⟨[97], none⟩).run (w₁.evict 2) = .error .nullDeref w₃ :=
    run_spfsInodeByName_none (fun _ _ => rfl) (by decide) hp' husable hlists' hlookup
  refine ⟨_, hbuilds, ⟨rfl, fun h : 1 = 2 => absurd h (by decide)⟩, ⟨by decide, by decide⟩,
    ⟨w₃, hby⟩, fun hlaw => ?_⟩
  obtain ⟨w', hfound⟩ := hlaw [97] ⟨by decide, by decide⟩
  rw [hby] at hfound
  cases hfound

end FirstFile

end Spfs
