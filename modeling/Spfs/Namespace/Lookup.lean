-- SUMMARY: Names in a directory without children and in a directory with one child: what spfs_inode_by_name returns.
import Spfs.Btree.Exact
import Spfs.Dir.Visits
import Spfs.Namespace

/-!
# Looking up a name

A comparison is right when the zero behind the name is in the array too. The child may be in
the cache, or it is loaded from its record and has the name that is in there.
-/

namespace Spfs

open EStateM (Within run_bind_of_ok run_bind_of_error)

/-! ## Comparing -/

/-- The array has the name and a zero behind it. -/
def SpellsName (a name : List UInt8) : Prop := name ++ [0] <+: a

theorem spellsName_nil {a : List UInt8} (h : SpellsName a []) : ∃ t, a = 0 :: t := by
  obtain ⟨t, rfl⟩ := h
  exact ⟨t, rfl⟩

theorem spellsName_cons {a name : List UInt8} {c : UInt8} (h : SpellsName a (c :: name)) :
    ∃ t, a = c :: t ∧ SpellsName t name := by
  obtain ⟨t, rfl⟩ := h
  exact ⟨name ++ [0] ++ t, rfl, t, rfl⟩

/-- The comparison with an array that has the name ends in it, with 0 for the name only. -/
theorem strcmp_spells {a name other : List UInt8} (h : SpellsName a name) (hname : 0 ∉ name)
    (hother : 0 ∉ other) : ∃ r, strcmp a other = .ok r ∧ (r = 0 ↔ other = name) := by
  induction name generalizing a other with
  | nil =>
    obtain ⟨t, rfl⟩ := spellsName_nil h
    cases other with
    | nil => exact ⟨0, rfl, by simp⟩
    | cons d ds =>
      have hne : (0 : UInt8) ≠ d := fun hd => hother (hd ▸ List.mem_cons_self)
      rw [strcmp, if_pos hne]
      refine ⟨_, rfl, iff_of_false ?_ (by simp)⟩
      split <;> decide
  | cons c name ih =>
    obtain ⟨t, rfl, hspells⟩ := spellsName_cons h
    have hc : c ≠ 0 := fun hc => hname (hc ▸ List.mem_cons_self)
    cases other with
    | nil => exact ⟨1, by rw [strcmp, if_neg hc], iff_of_false (by decide) (by simp)⟩
    | cons d ds =>
      by_cases hcd : c = d
      · subst hcd
        obtain ⟨r, hr, heq⟩ := ih hspells (fun hmem => hname (List.mem_cons_of_mem c hmem))
          (fun hmem => hother (List.mem_cons_of_mem c hmem))
        refine ⟨r, ?_, by rw [heq, List.cons_inj_right]⟩
        rw [strcmp, if_neg (not_not.mpr rfl), if_neg hc, hr]
      · rw [strcmp, if_pos hcd]
        refine ⟨_, rfl, iff_of_false ?_ fun h => hcd (List.cons.inj h).1.symm⟩
        split <;> decide

/-- A name that leaves room for the zero. -/
theorem spells_nameArray {name : List UInt8} (h : name.length ≤ spookyFsNameMax)
    (hroom : name.length < spookyFsNameMax) : SpellsName (nameArray name h).val name := by
  obtain ⟨n, hn⟩ := Nat.exists_eq_add_of_lt hroom
  have hzeros : spookyFsNameMax - name.length = n + 1 := by omega
  show name ++ [0] <+: name ++ List.replicate (spookyFsNameMax - name.length) 0
  rw [hzeros, List.replicate_succ]
  exact ⟨List.replicate n 0, by simp⟩

/-! ## Loading -/

section Loading

variable {env : Env} {ino offset k : ℕ} {w : World}

/-- The lookup of a record that the search of the root hits. -/
theorem run_spfsBtreeLookup_record (hio : ∀ t s, env.ioOk t s = true) (hfuel : env.fuel ≠ 0)
    (h : HitsRecord w ino offset) (dest : SpfsInode) :
    (spfsBtreeLookup env ino dest).run w =
      .ok (0, parsedInode (env.junk (w.time + 3)) (w.disk offset))
        (((leaveNode w w.sbi.tree.start).addEvent (.bread offset true)).addEvent (.brelse offset)) := by
  obtain ⟨j, hhit, hin, hoffset⟩ := h.hit
  obtain ⟨fuel, hstep⟩ := rootStep ino dest spfsBtreeLookupCb hfuel h.start
  rw [spfsBtreeLookup]
  generalize (spfsBtreeModify env ino dest spfsBtreeLookupCb).run w = r at hstep ⊢
  cases hstep with
  | unread hread => simp [hio] at hread
  | stuck _ hstuck =>
    rcases hstuck with hover | ⟨hempty, -⟩ | ⟨-, hmiss⟩
    · exact absurd h.length.2 (Nat.not_le.mpr hover)
    · exact absurd hempty (Nat.ne_of_gt h.length.1)
    · exact absurd hin (hmiss j hhit)
  | down _ hempty => exact absurd hempty (Nat.ne_of_gt h.length.1)
  | hit _ _ _ hhit' =>
    obtain rfl := hhit'.unique hhit
    rw [hoffset]
    have hvisit := btreeVisitEntry_visit env dest spfsBtreeLookupCb offset
      (leaveNode w w.sbi.tree.start)
    generalize (btreeVisitEntry env dest spfsBtreeLookupCb offset).run
      (leaveNode w w.sbi.tree.start) = r at hvisit ⊢
    cases hvisit with
    | none hzero => exact absurd hzero h.offset_ne
    | unread _ hread => simp [hio] at hread
    | malformed _ _ hmagic => exact absurd h.magic hmagic
    | fault _ _ _ hcb => cases hcb
    | clean _ _ _ hcb =>
      cases hcb
      rfl
    | dirty _ _ _ hcb => cases hcb

/-- The object that is loaded can be set up: it is a file, or a directory whose link count
or super block says that it is no wild object. -/
def SetsUp (i : SpfsInode) : Prop :=
  sIsReg i.iMode = true ∨ sIsDir i.iMode = true ∧ (i.iNlink ≠ 0 ∨ i.iSb = .sb)

theorem run_spfsSetupInodeFp_of {i : SpfsInode} (hp : w.inodes ino = some i) (h : SetsUp i) :
    ∃ n, (spfsSetupInodeFp ino).run w = .ok () (w.setInode ino { i with iNlink := n }) := by
  rw [spfsSetupInodeFp, run_bind_of_ok (run_getInode_of hp)]
  by_cases hreg : sIsReg i.iMode = true
  · refine ⟨i.iNlink, ?_⟩
    rw [if_pos hreg, World.setInode_self hp]
    rfl
  · obtain ⟨hdir, hlink⟩ := h.resolve_left hreg
    refine ⟨(i.iNlink + 1) % 2 ^ 32, ?_⟩
    rw [if_neg hreg, if_pos hdir, incNlink, run_bind_of_ok (run_getInode_of hp)]
    split
    · next hzero =>
      rw [run_bind_of_ok (run_followSb (hlink.resolve_left (not_not.mpr hzero)) w)]
      rfl
    · rfl

/-- The inode of a record that is not in the cache gets the name that is in the record. -/
theorem run_spfsInodeById_record (hio : ∀ t s, env.ioOk t s = true) (hfuel : env.fuel ≠ 0)
    (hfree : w.inodes ino = none) (hpick : env.slabPick w.time = some k)
    (h : HitsRecord w ino offset)
    (hsets : SetsUp (parsedInode (env.junk (w.time + 4)) (w.disk offset))) :
    ∃ i w', (spfsInodeById env ino).run w = .ok (.ok (some ino)) w' ∧ w'.inodes ino = some i ∧
      i.name = (parsedInode (env.junk (w.time + 4)) (w.disk offset)).name := by
  set w₁ := withNewObject w ino k
  have hget : (igetLocked env ino).run w = .ok (some ino) w₁ := by
    rw [run_igetLocked_none ino hfree, hpick]
  have hat : w₁.inodes ino = some (newObject ino (w.slab[k]?.getD spfsInodeInitOnce)) :=
    Function.update_self _ _ _
  have hhit : HitsRecord w₁ ino offset := h.congr rfl rfl rfl h.magic
  have hlookup := run_spfsBtreeLookup_record hio hfuel hhit
    (newObject ino (w.slab[k]?.getD spfsInodeInitOnce))
  have htime : w₁.time + 3 = w.time + 4 := rfl
  have hdisk : w₁.disk offset = w.disk offset := rfl
  rw [htime, hdisk] at hlookup
  set r := parsedInode (env.junk (w.time + 4)) (w.disk offset)
  set w₂ := ((leaveNode w₁ w₁.sbi.tree.start).addEvent (.bread offset true)).addEvent (.brelse offset)
  have hput : (w₂.setInode ino r).inodes ino = some r := Function.update_self _ _ _
  obtain ⟨n, hsetup⟩ := run_spfsSetupInodeFp_of hput hsets
  have hset : ((w₂.setInode ino r).setInode ino { r with iNlink := n }).inodes ino =
      some { r with iNlink := n } := Function.update_self _ _ _
  have hold : (newObject ino (w.slab[k]?.getD spfsInodeInitOnce)).iNew = true := rfl
  refine ⟨{ r with iNlink := n, iNew := false },
    ((w₂.setInode ino r).setInode ino { r with iNlink := n }).setInode ino
      { r with iNlink := n, iNew := false }, ?_, Function.update_self _ _ _, rfl⟩
  rw [spfsInodeById, run_bind_of_ok hget]
  dsimp only
  rw [run_bind_of_ok (run_getInode_of hat), hold, if_neg (by simp), run_bind_of_ok hlookup]
  dsimp only
  rw [if_neg (not_not.mpr rfl), run_bind_of_ok (run_putInode ino r w₂), run_bind_of_ok hsetup,
    run_bind_of_ok (run_unlockNewInode hset)]
  rfl

/-- The null pointer comes back when the tree does not have the inode. -/
theorem run_spfsInodeById_absent (hfree : w.inodes ino = none) (hpick : env.slabPick w.time = some k)
    (hlookup : ∀ dest, ∃ res w₂, res ≠ 0 ∧
      (spfsBtreeLookup env ino dest).run (withNewObject w ino k) = .ok (res, dest) w₂) :
    ∃ w', (spfsInodeById env ino).run w = .ok (.ok none) w' := by
  set w₁ := withNewObject w ino k
  set i := newObject ino (w.slab[k]?.getD spfsInodeInitOnce)
  have hget : (igetLocked env ino).run w = .ok (some ino) w₁ := by
    rw [run_igetLocked_none ino hfree, hpick]
  have hat : w₁.inodes ino = some i := Function.update_self _ _ _
  obtain ⟨res, w₂, hres, hrun⟩ := hlookup i
  have hat₂ : w₂.inodes ino = some i := by
    rw [((spfsBtreeLookup_onlyLogs env ino i).of_ok hrun).inodes]
    exact hat
  obtain ⟨w₃, hfailed⟩ := igetFailed_returns hat₂
  have hold : i.iNew = true := rfl
  refine ⟨w₃, ?_⟩
  rw [spfsInodeById, run_bind_of_ok hget]
  dsimp only
  rw [run_bind_of_ok (run_getInode_of hat), hold, if_neg (by simp), run_bind_of_ok hrun]
  dsimp only
  rw [if_pos hres, run_bind_of_ok hfailed]
  rfl

end Loading

/-! ## Finding -/

theorem keepsStore_spfsInodeByNameCb (name : List UInt8) : KeepsStore (spfsInodeByNameCb name) := by
  intro result cur
  unfold spfsInodeByNameCb
  cases cur with
  | none => exact Within.throw _
  | some cur =>
    refine (within_getInode cur).bind fun i => ?_
    split
    · exact Within.throw _
    · exact Within.pure _
    · exact Within.pure _

/-- A directory that a lookup can go through. -/
structure Usable (i : SpfsInode) : Prop where
  sb : i.iSb = .sb
  dir : sIsDir i.iMode = true
  unlocked : i.lock = false

section Finding

variable {env : Env} {p s id : ℕ} {w : World} {dir : SpfsInode} {dentry : Dentry}

/-- No name is in a directory without blocks. -/
theorem run_spfsInodeByName_empty (hp : w.inodes p = some dir) (h : Usable dir) (hstart : dir.start = 0) :
    ∃ w', (spfsInodeByName env p dentry).run w = .ok none w' := by
  have hlocked := run_mutexLock_of hp h.unlocked
  set w₁ := (w.setInode p { dir with lock := true }).addEvent (.lock p)
  have hp₁ : w₁.inodes p = some { dir with lock := true } := Function.update_self _ _ _
  have hall : ∃ w', (spfsForAllChildren env (spfsInodeByNameCb dentry.name) p none).run w =
      .ok (0, none) w' := by
    rw [spfsForAllChildren, run_bind_of_ok (run_getInode_of hp), run_bind_of_ok (run_superOf h.sb w),
      if_neg (by simp [h.dir]), run_bind_of_ok hlocked, hstart, spfsForAllChildrenLit_zero,
      run_bind_of_ok (EStateM.run_pure _ _), run_bind_of_ok (run_mutexUnlock_of hp₁)]
    exact ⟨_, rfl⟩
  obtain ⟨w', hrun⟩ := hall
  refine ⟨w', ?_⟩
  rw [spfsInodeByName, run_bind_of_ok hrun]
  rfl

/-- The state in which the only child of a directory is looked up by its id. -/
def visitingWorld (w : World) (p : ℕ) (dir : SpfsInode) : World :=
  ((w.setInode p { dir with lock := true }).addEvent (.lock p)).addEvent (.bread dir.start true)

/-- The visit of a child with a name. -/
theorem run_spfsInodeByNameCb {w₁ : World} {i : SpfsInode} {name : List UInt8} {r : ℤ}
    (hid : w₁.inodes id = some i) (hcmp : strcmp i.name.val name = .ok r) :
    (spfsInodeByNameCb name none (some id)).run w₁ =
      .ok (if r = 0 then (some id, false) else (none, true)) w₁ := by
  rw [spfsInodeByNameCb, run_bind_of_ok (run_getInode_of hid)]
  by_cases hr : r = 0
  · subst hr
    simp only [hcmp]
    rfl
  · rw [if_neg hr, hcmp]
    split
    · next heq => cases heq
    · next heq => exact absurd (Except.ok.inj heq) hr
    · rfl

theorem DirLists.head {bSize start : ℕ} {disk : ℕ → Block} {ids : List ℕ}
    {blocks : List (ℕ × List ℕ)} (h : DirLists bSize disk start ((s, ids) :: blocks)) : s = start := by
  generalize hblocks : (s, ids) :: blocks = blocks' at h
  cases h with
  | nil => cases hblocks
  | cons => exact congrArg Prod.fst (List.cons.inj hblocks).1

/-- The traversal of a directory with one child. -/
theorem run_spfsForAllChildren_one {γ : Type} {f : ForAllCb γ} (hio : ∀ t s, env.ioOk t s = true)
    (hfuel : env.fuel ≠ 0) (hf : KeepsStore f) (hp : w.inodes p = some dir) (h : Usable dir)
    (hlists : DirLists w.bSize w.disk dir.start [(s, [id])]) (closure : γ) :
    (spfsForAllChildren env f p closure).run w =
      (do
        let r ← visitBlocks env f [(dir.start, [id])] closure
        mutexUnlock p
        return (0, r.1) : Kernel (ℤ × γ)).run
        ((w.setInode p { dir with lock := true }).addEvent (.lock p)) := by
  have hhead := hlists.head
  subst hhead
  rw [run_spfsForAllChildren hio hf hp h.sb h.dir h.unlocked hlists (Nat.one_le_iff_ne_zero.mpr hfuel),
    run_bind_of_ok (run_mutexLock_of hp h.unlocked)]

/-- The only child is found, and its name is compared. -/
theorem run_spfsInodeByName_one (hio : ∀ t s, env.ioOk t s = true) (hfuel : env.fuel ≠ 0)
    (hp : w.inodes p = some dir) (h : Usable dir)
    (hlists : DirLists w.bSize w.disk dir.start [(s, [id])]) {w₁ : World} {i : SpfsInode} {r : ℤ}
    (hlookup : (spfsInodeById env id).run (visitingWorld w p dir) = .ok (.ok (some id)) w₁)
    (hid : w₁.inodes id = some i) (hcmp : strcmp i.name.val dentry.name = .ok r) :
    ∃ w', (spfsInodeByName env p dentry).run w = .ok (if r = 0 then some id else none) w' := by
  have hkept := spfsInodeById_keepsDir (p := p) hlookup
  obtain ⟨n, hp₁⟩ := hkept { dir with lock := true } (Function.update_self _ _ _)
  have hp₂ : (w₁.addEvent (.brelse dir.start)).inodes p = some { dir with lock := true, iCount := n } :=
    hp₁
  have hcb := run_spfsInodeByNameCb hid hcmp
  have hvisit : (visitAll env (spfsInodeByNameCb dentry.name) [id] none).run (visitingWorld w p dir) =
      .ok (if r = 0 then (some id, false) else (none, true)) w₁ := by
    rw [visitAll, run_bind_of_ok hlookup]
    dsimp only
    rw [run_bind_of_ok hcb]
    split <;> rfl
  have hblocks : (visitBlocks env (spfsInodeByNameCb dentry.name) [(dir.start, [id])] none).run
      ((w.setInode p { dir with lock := true }).addEvent (.lock p)) =
      .ok (if r = 0 then (some id, false) else (none, true)) (w₁.addEvent (.brelse dir.start)) := by
    rw [visitBlocks, run_bind_of_ok (run_emit _ _)]
    show (visitAll env (spfsInodeByNameCb dentry.name) [id] none >>= _).run (visitingWorld w p dir) = _
    rw [run_bind_of_ok hvisit]
    dsimp only
    rw [run_bind_of_ok (run_brelse dir.start w₁)]
    split <;> rfl
  rw [spfsInodeByName, EStateM.run_bind_match,
    run_spfsForAllChildren_one hio hfuel (keepsStore_spfsInodeByNameCb _) hp h hlists,
    run_bind_of_ok hblocks, run_bind_of_ok (run_mutexUnlock_of hp₂)]
  refine ⟨((w₁.addEvent (.brelse dir.start)).setInode p
    { dir with lock := false, iCount := n }).addEvent (.unlock p), ?_⟩
  by_cases hr : r = 0
  · simp only [if_pos hr]
    rfl
  · simp only [if_neg hr]
    rfl

/-- The only child is not found, and the null pointer is followed to its name. -/
theorem run_spfsInodeByName_none (hio : ∀ t s, env.ioOk t s = true) (hfuel : env.fuel ≠ 0)
    (hp : w.inodes p = some dir) (h : Usable dir)
    (hlists : DirLists w.bSize w.disk dir.start [(s, [id])]) {w₁ : World}
    (hlookup : (spfsInodeById env id).run (visitingWorld w p dir) = .ok (.ok none) w₁) :
    (spfsInodeByName env p dentry).run w = .error .nullDeref w₁ := by
  have hvisit : (visitAll env (spfsInodeByNameCb dentry.name) [id] none).run (visitingWorld w p dir) =
      .error .nullDeref w₁ := by
    rw [visitAll, run_bind_of_ok hlookup]
    rfl
  have hblocks : (visitBlocks env (spfsInodeByNameCb dentry.name) [(dir.start, [id])] none).run
      ((w.setInode p { dir with lock := true }).addEvent (.lock p)) = .error .nullDeref w₁ := by
    rw [visitBlocks, run_bind_of_ok (run_emit _ _)]
    show (visitAll env (spfsInodeByNameCb dentry.name) [id] none >>= _).run (visitingWorld w p dir) = _
    rw [run_bind_of_error hvisit]
  rw [spfsInodeByName, EStateM.run_bind_match,
    run_spfsForAllChildren_one hio hfuel (keepsStore_spfsInodeByNameCb _) hp h hlists,
    run_bind_of_error hblocks]

end Finding

end Spfs
