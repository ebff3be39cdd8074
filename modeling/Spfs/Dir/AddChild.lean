-- SUMMARY: What spfs_add_child does, by the place that it finds for the child, and what is left of a failing call.
import Spfs.Balance
import Spfs.Dir.Listing

/-!
# Adding a child

`spfs_add_child` looks for the first block of the directory that is not full, and
allocates a block at the end of the chain. The place that it finds (`addPlace`) decides
what the call does.
-/

namespace Spfs

open EStateM (Within)

/-- Where a child goes: to the next slot of a block, or to a new block. Or what ends the
search: a block that cannot be read, a block of the chain that is no directory block, no
block to be had, and the bound on iterations. -/
inductive Place where
  | slot (s : ℕ) (block : DirBlock)
  | fresh (s : ℕ)
  | unread
  | garbled (s : ℕ)
  | noBlock
  | spent
deriving DecidableEq, Repr

/-- The place at the end of the chain. -/
def endPlace (env : Env) (fl : FreeList) (t : ℕ) : Place :=
  let s := (spfsFreeAlloc fl 1).1
  if s ≠ 0 ∧ env.ioOk (t + 1) s then .fresh s else .noBlock

/-- The place for the next child of the directory that starts at a sector, looked for from
time `t` on. -/
def addPlace (env : Env) (disk : ℕ → Block) (fl : FreeList) : ℕ → ℕ → ℕ → Place
  | _, t, 0 => endPlace env fl t
  | 0, _, _ => .spent
  | fuel + 1, t, start =>
    if !env.ioOk t start then .unread
    else if dirMagic (disk start) ≠ spookyFsDirBlockMagic then .garbled start
    else if !spfsDirIsFull (parsedDir (disk start)) then .slot start (parsedDir (disk start))
    else addPlace env disk fl fuel (t + 2) (parsedDir (disk start)).next

/-- The block after an id was written to slot `idx`, if the slot is inside of it. -/
def withSlot (bSize idx child : ℕ) (b : Block) : Block :=
  if 12 + idx * 8 + 8 ≤ bSize then b.write (12 + idx * 8) (beEncode 4 child) else b

/-- The block after a child was added to it. -/
def withChild (bSize : ℕ) (block : DirBlock) (child : ℕ) (b : Block) : Block :=
  withDir { block with children := (block.children + 1) % 2 ^ 32 } (withSlot bSize block.children child b)

section Blocks

variable {b : Block} {block : DirBlock}

theorem DirAt.unique {block' : DirBlock} (h : DirAt b block) (h' : DirAt b block') : block = block' :=
  h.eq.symm.trans h'.eq

theorem dirAt_withChild (h : DirAt b block) (bSize child : ℕ) :
    DirAt (withChild bSize block child b)
      { block with children := (block.children + 1) % 2 ^ 32 } :=
  dirAt_withDir _ h.bounds.1 (Nat.mod_lt _ (by decide))

end Blocks

section Runs

variable {env : Env} {p s start child fuel : ℕ} {block : DirBlock} {w w' : World} {i : SpfsInode}

theorem run_spfsDirWriteChild (s child : ℕ) {idx : ℕ} (h : 12 + idx * 8 ≤ w.bSize) :
    ∃ r, (spfsDirWriteChild s 12 idx child).run w =
      .ok r (w.setBlock s (withSlot w.bSize idx child (w.disk s))) := by
  rw [spfsDirWriteChild, EStateM.run_bind_of_ok (EStateM.run_get w),
    EStateM.run_bind_of_ok (run_spfsSbRemaining h w)]
  by_cases hfit : 12 + idx * 8 + 8 ≤ w.bSize
  · have hroom : ¬ w.bSize - (12 + idx * 8) < 8 := by omega
    have hwrite : (makeBuf s (12 + idx * 8) fun bSize => spfsSbWriteU32 bSize child).run w =
        .ok (true, 12 + idx * 8 + 4)
          (w.setBlock s ((w.disk s).write (12 + idx * 8) (beEncode 4 child))) := by
      rw [run_makeBuf, run_spfsSbWriteU32 (by omega)]
    refine ⟨0, ?_⟩
    rw [if_neg hroom, EStateM.run_bind_of_ok hwrite, withSlot, if_pos hfit]
    rfl
  · have hroom : w.bSize - (12 + idx * 8) < 8 := by omega
    refine ⟨- EIO, ?_⟩
    rw [if_pos hroom, withSlot, if_neg hfit, World.setBlock_self]
    rfl

theorem run_spfsDirWriteChild_bug {idx : ℕ} (h : w.bSize < 12 + idx * 8) :
    (spfsDirWriteChild s 12 idx child).run w = .error .bug w := by
  rw [spfsDirWriteChild, EStateM.run_bind_of_ok (EStateM.run_get w),
    EStateM.run_bind_of_error (run_spfsSbRemaining_bug h w)]

/-- The slot and the header are written, unless the slot starts behind the block. -/
theorem run_addToBlock (s child : ℕ) (h : 12 + block.children * 8 ≤ w.bSize) :
    (addToBlock s 12 block child).run w =
      .ok () ((w.setBlock s (withChild w.bSize block child (w.disk s))).addEvent (.dirty s)) := by
  obtain ⟨r, hslot⟩ := run_spfsDirWriteChild s child h
  rw [addToBlock, EStateM.run_bind_of_ok hslot, EStateM.run_bind_of_ok (run_makeDir s _),
    run_markBufferDirty, World.setBlock_setBlock, World.setBlock_disk, Function.update_self]
  rfl

theorem run_addToBlock_bug (s child : ℕ) (h : w.bSize < 12 + block.children * 8) :
    (addToBlock s 12 block child).run w = .error .bug w := by
  rw [addToBlock, EStateM.run_bind_of_error (run_spfsDirWriteChild_bug h)]

/-- The step of the loop at a block that is read, is a directory block, and is full. -/
theorem spfsAddChildLit_full (hs : start ≠ 0) (hio : env.ioOk w.time start = true)
    (hdir : DirAt (w.disk start) block) (hfull : spfsDirIsFull block = true) :
    (spfsAddChildLit env p child (fuel + 1) start).run w =
      (spfsAddChildLit env p child fuel block.next).run
        ((w.addEvent (.bread start true)).addEvent (.brelse start)) := by
  have hread : (sbBread env start).run w = .ok true (w.addEvent (.bread start true)) :=
    run_sbBread_ok hio
  have hdir₁ : DirAt ((w.addEvent (.bread start true)).disk start) block := hdir
  rw [spfsAddChildLit, EStateM.run_check_of_true hread, EStateM.run_bind_of_ok hdir₁.run_parse]
  · simp only [hfull]
    exact EStateM.run_bind_of_ok (run_brelse start _)
  · exact hs

/-- The step at a block that is read, is a directory block, and is not full. -/
theorem spfsAddChildLit_here (hs : start ≠ 0) (hio : env.ioOk w.time start = true)
    (hdir : DirAt (w.disk start) block) (hfull : spfsDirIsFull block = false) :
    (spfsAddChildLit env p child (fuel + 1) start).run w =
      (do
        addToBlock start 12 block child
        brelse start
        return 0).run (w.addEvent (.bread start true)) := by
  have hread : (sbBread env start).run w = .ok true (w.addEvent (.bread start true)) :=
    run_sbBread_ok hio
  have hdir₁ : DirAt ((w.addEvent (.bread start true)).disk start) block := hdir
  rw [spfsAddChildLit, EStateM.run_check_of_true hread, EStateM.run_bind_of_ok hdir₁.run_parse]
  · simp only [hfull]
    rfl
  · exact hs

theorem addPlace_zero (disk : ℕ → Block) (fl : FreeList) (t : ℕ) :
    addPlace env disk fl fuel t 0 = endPlace env fl t := by
  cases fuel <;> rfl

theorem addPlace_of_ne {disk : ℕ → Block} {fl : FreeList} {t : ℕ} (hs : start ≠ 0) :
    addPlace env disk fl (fuel + 1) t start =
      if !env.ioOk t start then .unread
      else if dirMagic (disk start) ≠ spookyFsDirBlockMagic then .garbled start
      else if !spfsDirIsFull (parsedDir (disk start)) then .slot start (parsedDir (disk start))
      else addPlace env disk fl fuel (t + 2) (parsedDir (disk start)).next := by
  rw [addPlace]
  exact hs

/-- The walk goes on at this block. -/
def GoesOn (env : Env) (w : World) (s : ℕ) : Prop :=
  env.ioOk w.time s = true ∧ dirMagic (w.disk s) = spookyFsDirBlockMagic ∧
    spfsDirIsFull (parsedDir (w.disk s)) = true

/-- The call comes to a block where the walk does not go on, or to the end of the chain, or
to the end of its iterations; till then it only logs, and gives back what it takes. -/
theorem spfsAddChildLit_walk (env : Env) (p child fuel start : ℕ) (w : World) :
    ∃ n s w₁, OnlyLogs w w₁ ∧ Balanced w w₁ ∧
      (spfsAddChildLit env p child fuel start).run w = (spfsAddChildLit env p child n s).run w₁ ∧
      addPlace env w.disk w.sbi.freeList fuel w.time start =
        addPlace env w₁.disk w₁.sbi.freeList n w₁.time s ∧
      (s = 0 ∨ n = 0 ∨ ¬ GoesOn env w₁ s) := by
  induction fuel generalizing start w with
  | zero => exact ⟨0, start, w, refl_of OnlyLogs w, refl_of Balanced w, rfl, rfl, .inr (.inl rfl)⟩
  | succ fuel ih =>
    by_cases hs : start = 0
    · exact ⟨fuel + 1, start, w, refl_of OnlyLogs w, refl_of Balanced w, rfl, rfl, .inl hs⟩
    by_cases hgo : GoesOn env w start
    · obtain ⟨hio, hmagic, hfull⟩ := hgo
      obtain ⟨n, s, w₁, hlogs, hbal, hrun, hplace, hend⟩ :=
        ih (parsedDir (w.disk start)).next ((w.addEvent (.bread start true)).addEvent (.brelse start))
      refine ⟨n, s, w₁, ?_, ?_, ?_, ?_, hend⟩
      · exact trans_of OnlyLogs ⟨[.brelse start, .bread start true], rfl⟩ hlogs
      · exact Balanced.trans (Balanced.of_bread_brelse (refl_of Balanced _)) hbal
      · rw [spfsAddChildLit_full hs hio ⟨hmagic, rfl⟩ hfull, hrun]
      · rw [addPlace_of_ne hs, ← hplace, hio, if_neg (by simp), if_neg (not_not.mpr hmagic), hfull,
          if_neg (by simp)]
        rfl
    · exact ⟨fuel + 1, start, w, refl_of OnlyLogs w, refl_of Balanced w, rfl, rfl,
        .inr (.inr hgo)⟩

/-- Every way the loop can end, for each place. -/
inductive AddOutcome (p child : ℕ) (i : SpfsInode) (w : World) :
    Place → EStateM.Result Fault World ℤ → Prop where
  | slot {s : ℕ} {block : DirBlock} {w' : World} : s ≠ 0 → DirAt (w.disk s) block →
      spfsDirIsFull block = false → 12 + block.children * 8 ≤ w.bSize →
      OnlyLogs (w.setBlock s (withChild w.bSize block child (w.disk s))) w' → Balanced w w' →
      AddOutcome p child i w (.slot s block) (.ok 0 w')
  | bug {s : ℕ} {block : DirBlock} {w' : World} : w.bSize < 12 + block.children * 8 →
      AddOutcome p child i w (.slot s block) (.error .bug w')
  | fresh {s : ℕ} {w' : World} : s ≠ 0 → s = (spfsFreeAlloc w.sbi.freeList 1).1 →
      OnlyLogs (((w.setFreeList (spfsFreeAlloc w.sbi.freeList 1).2).setBlock s
        (withChild w.bSize ⟨0, 0⟩ child (withDir ⟨0, 0⟩ (w.disk s)))).setInode p
          { i with start := s }) w' → Balanced w w' →
      AddOutcome p child i w (.fresh s) (.ok 0 w')
  | unread {w' : World} : OnlyLogs w w' → Balanced w w' →
      AddOutcome p child i w .unread (.ok (- EIO) w')
  | garbled {s : ℕ} {w' : World} : OnlyLogs w w' → Takes (oneBuffer s) w w' →
      AddOutcome p child i w (.garbled s) (.ok (-EINVAL) w')
  | noBlock {w' : World} :
      OnlyLogs ((w.setFreeList (spfsFreeAlloc w.sbi.freeList 1).2).setInode p { i with start := 0 }) w' →
      Balanced w w' → AddOutcome p child i w .noBlock (.ok (-EINVAL) w')
  | spent {w' : World} : AddOutcome p child i w .spent (.error .fuel w')

/-- What was logged before does not matter. -/
theorem AddOutcome.of_logs {w₁ : World} {place : Place} {r : EStateM.Result Fault World ℤ}
    (h : AddOutcome p child i w₁ place r) (hlogs : OnlyLogs w w₁) (hbal : Balanced w w₁) :
    AddOutcome p child i w place r := by
  cases h with
  | slot hs hdir hfull hfit hw' hbal' =>
    rw [hlogs.disk] at hdir
    rw [hlogs.bSize] at hfit
    rw [hlogs.disk, hlogs.bSize] at hw'
    exact .slot hs hdir hfull hfit (trans_of OnlyLogs (hlogs.setBlock _ _) hw') (hbal.trans hbal')
  | bug hout =>
    rw [hlogs.bSize] at hout
    exact .bug hout
  | fresh hs hsel hw' hbal' =>
    rw [hlogs.sbi] at hsel
    rw [hlogs.disk, hlogs.bSize, hlogs.sbi] at hw'
    exact .fresh hs hsel
      (trans_of OnlyLogs (((hlogs.setFreeList _).setBlock _ _).setInode _ _) hw') (hbal.trans hbal')
  | unread hw' hbal' => exact .unread (trans_of OnlyLogs hlogs hw') (hbal.trans hbal')
  | garbled hw' htakes =>
    have hsum := Takes.trans hbal htakes
    rw [zero_add] at hsum
    exact .garbled (trans_of OnlyLogs hlogs hw') hsum
  | noBlock hw' hbal' =>
    rw [hlogs.sbi] at hw'
    exact .noBlock (trans_of OnlyLogs ((hlogs.setFreeList _).setInode _ _) hw') (hbal.trans hbal')
  | spent => exact .spent

/-- No block is left, or the one that was left cannot be read and is lost. -/
theorem run_spfsDirBlockAlloc_none
    (h : ¬ ((spfsFreeAlloc w.sbi.freeList 1).1 ≠ 0 ∧
      env.ioOk (w.time + 1) (spfsFreeAlloc w.sbi.freeList 1).1)) :
    ∃ w₁, (spfsDirBlockAlloc env).run w = .ok (0, 0) w₁ ∧
      OnlyLogs (w.setFreeList (spfsFreeAlloc w.sbi.freeList 1).2) w₁ ∧ Balanced w w₁ := by
  set r := spfsFreeAlloc w.sbi.freeList 1 with hr
  have halloc := run_freeAlloc 1 w
  rw [← hr] at halloc
  by_cases hzero : r.1 = 0
  · simp only [hzero, ne_eq, not_true_eq_false, if_false] at halloc
    refine ⟨w.setFreeList r.2, ?_, refl_of OnlyLogs _, Takes.of_log_eq rfl⟩
    rw [spfsDirBlockAlloc, EStateM.run_bind_of_ok halloc, if_neg (not_not.mpr rfl)]
    rfl
  · simp only [ne_eq, hzero, not_false_eq_true, if_true] at halloc
    set w₁ := (w.setFreeList r.2).addEvent (.alloc r.1 1)
    have hio : env.ioOk (w.time + 1) r.1 = false := by
      apply eq_false_of_ne_true
      exact fun hio => h ⟨hzero, hio⟩
    have hread : (sbBread env r.1).run w₁ = .ok false (w₁.addEvent (.bread r.1 false)) :=
      run_sbBread_failed hio
    refine ⟨_, ?_, ⟨[.bread r.1 false, .alloc r.1 1], rfl⟩,
      ⟨[.bread r.1 false, .alloc r.1 1], rfl, fun s => rfl⟩⟩
    rw [spfsDirBlockAlloc, EStateM.run_bind_of_ok halloc, if_pos hzero,
      EStateM.run_check_of_false hread]
    rfl

/-- The new block holds an empty header, and its buffer is still held. -/
theorem run_spfsDirBlockAlloc
    (hs : (spfsFreeAlloc w.sbi.freeList 1).1 ≠ 0)
    (hio : env.ioOk (w.time + 1) (spfsFreeAlloc w.sbi.freeList 1).1 = true) :
    (spfsDirBlockAlloc env).run w = .ok ((spfsFreeAlloc w.sbi.freeList 1).1, 12)
      ((((w.setFreeList (spfsFreeAlloc w.sbi.freeList 1).2).addEvent
        (.alloc (spfsFreeAlloc w.sbi.freeList 1).1 1)).addEvent
          (.bread (spfsFreeAlloc w.sbi.freeList 1).1 true)).setBlock (spfsFreeAlloc w.sbi.freeList 1).1
            (withDir ⟨0, 0⟩ (w.disk (spfsFreeAlloc w.sbi.freeList 1).1))) := by
  set r := spfsFreeAlloc w.sbi.freeList 1 with hr
  have halloc := run_freeAlloc 1 w
  rw [← hr] at halloc
  simp only [ne_eq, hs, not_false_eq_true, if_true] at halloc
  set w₁ := (w.setFreeList r.2).addEvent (.alloc r.1 1)
  have hread : (sbBread env r.1).run w₁ = .ok true (w₁.addEvent (.bread r.1 true)) :=
    run_sbBread_ok hio
  rw [spfsDirBlockAlloc, EStateM.run_bind_of_ok halloc, if_pos hs, EStateM.run_check_of_true hread,
    EStateM.run_bind_of_ok (run_makeDir r.1 _)]
  rfl

/-- The end of the chain. -/
theorem spfsAddChildLit_end (hp : w.inodes p = some i) :
    AddOutcome p child i w (endPlace env w.sbi.freeList w.time)
      ((spfsAddChildLit env p child fuel 0).run w) := by
  have hzero : spfsAddChildLit env p child fuel 0 = (do
      let place ← spfsDirBlockAlloc env
      modifyInode p fun i => { i with start := place.1 }
      if place.1 = 0 then
        return -EINVAL
      addToBlock place.1 place.2 ⟨0, 0⟩ child
      brelse place.1
      return 0) := by
    cases fuel <;> rfl
  rw [hzero, endPlace]
  by_cases hok : (spfsFreeAlloc w.sbi.freeList 1).1 ≠ 0 ∧
      env.ioOk (w.time + 1) (spfsFreeAlloc w.sbi.freeList 1).1
  · set s := (spfsFreeAlloc w.sbi.freeList 1).1 with hs
    have halloc := run_spfsDirBlockAlloc hok.1 hok.2
    rw [← hs] at halloc
    rw [if_pos hok, EStateM.run_bind_of_ok halloc]
    dsimp only
    set w₁ := (((w.setFreeList (spfsFreeAlloc w.sbi.freeList 1).2).addEvent (.alloc s 1)).addEvent
      (.bread s true)).setBlock s (withDir ⟨0, 0⟩ (w.disk s)) with hw₁
    have hp₁ : w₁.inodes p = some i := hp
    have hfit : 12 + (⟨0, 0⟩ : DirBlock).children * 8 ≤
        (w₁.setInode p { i with start := s }).bSize := by
      have hle := w.le_bSize
      show 12 + 0 * 8 ≤ w.bSize
      omega
    rw [EStateM.run_bind_of_ok (run_modifyInode_of hp₁), if_neg hok.1,
      EStateM.run_bind_of_ok (run_addToBlock s child hfit)]
    refine .fresh hok.1 hs ⟨[.brelse s, .dirty s, .bread s true, .alloc s 1], ?_⟩ ?_
    · simp only [hw₁, World.setInode, World.setBlock, World.addEvent, World.setFreeList,
        Function.update_self, Function.update_idem]
      rfl
    · have hfirst : Balanced w (w.addEvent (.alloc s 1)) := Takes.event (fun _ => rfl) w
      have hdirty : Balanced ((w.addEvent (.alloc s 1)).addEvent (.bread s true))
          (((w.addEvent (.alloc s 1)).addEvent (.bread s true)).addEvent (.dirty s)) :=
        Takes.event (fun _ => rfl) _
      exact (hfirst.trans (Balanced.of_bread_brelse hdirty)).of_log rfl rfl
  · obtain ⟨w₁, halloc, hlogs, hbal⟩ := run_spfsDirBlockAlloc_none hok
    have hp₁ : w₁.inodes p = some i := by
      rw [hlogs.inodes]
      exact hp
    rw [if_neg hok, EStateM.run_bind_of_ok halloc]
    dsimp only
    rw [EStateM.run_bind_of_ok (run_modifyInode_of hp₁), if_pos rfl]
    exact .noBlock (hlogs.setInode _ _) (hbal.trans (Takes.of_log_eq rfl))

theorem spfsAddChildLit_outcome (env : Env) (child fuel start : ℕ) (hp : w.inodes p = some i) :
    AddOutcome p child i w (addPlace env w.disk w.sbi.freeList fuel w.time start)
      ((spfsAddChildLit env p child fuel start).run w) := by
  obtain ⟨n, s, w₁, hlogs, hbal, hrun, hplace, hend⟩ :=
    spfsAddChildLit_walk env p child fuel start w
  rw [hrun, hplace]
  refine AddOutcome.of_logs ?_ hlogs hbal
  have hp₁ : w₁.inodes p = some i := by
    rw [hlogs.inodes]
    exact hp
  by_cases hs : s = 0
  · subst hs
    rw [addPlace_zero]
    exact spfsAddChildLit_end hp₁
  cases n with
  | zero =>
    obtain ⟨s, rfl⟩ := Nat.exists_eq_succ_of_ne_zero hs
    exact .spent
  | succ n =>
    have hstop : ¬ GoesOn env w₁ s := by tauto
    rw [addPlace_of_ne hs]
    cases hio : env.ioOk w₁.time s with
    | false =>
      have hread : (sbBread env s).run w₁ = .ok false (w₁.addEvent (.bread s false)) :=
        run_sbBread_failed hio
      rw [spfsAddChildLit, EStateM.run_check_of_false hread]
      · exact .unread ⟨[.bread s false], rfl⟩ (Takes.event (fun _ => rfl) w₁)
      · exact hs
    | true =>
    by_cases hmagic : dirMagic (w₁.disk s) = spookyFsDirBlockMagic
    · have hfull : spfsDirIsFull (parsedDir (w₁.disk s)) = false := by
        apply eq_false_of_ne_true
        exact fun hfull => hstop ⟨hio, hmagic, hfull⟩
      have hdir : DirAt (w₁.disk s) (parsedDir (w₁.disk s)) := ⟨hmagic, rfl⟩
      rw [if_neg (by simp), if_neg (not_not.mpr hmagic), hfull, if_pos Bool.not_false,
        spfsAddChildLit_here hs hio hdir hfull]
      rcases Nat.lt_or_ge w₁.bSize (12 + (parsedDir (w₁.disk s)).children * 8) with hout | hfit
      · have hadd := run_addToBlock_bug (w := w₁.addEvent (.bread s true)) s child hout
        rw [EStateM.run_bind_of_error hadd]
        exact .bug hout
      · have hadd := run_addToBlock (w := w₁.addEvent (.bread s true)) s child hfit
        rw [EStateM.run_bind_of_ok hadd]
        refine .slot hs hdir hfull hfit ⟨[.brelse s, .dirty s, .bread s true], rfl⟩ ?_
        exact Balanced.of_bread_brelse (Takes.event (fun _ => rfl) _)
    · have hread : (sbBread env s).run w₁ = .ok true (w₁.addEvent (.bread s true)) :=
        run_sbBread_ok hio
      have hparse := run_parse_of_not_dir (s := s) (w := w₁.addEvent (.bread s true)) hmagic
      rw [if_neg (by simp), if_pos hmagic, spfsAddChildLit, EStateM.run_check_of_true hread,
        EStateM.run_bind_of_ok hparse]
      · exact .garbled ⟨[.bread s true], rfl⟩ (Takes.bread w₁ s)
      · exact hs

/-- A directory that is locked and counts one more child. -/
def SpfsInode.counted (i : SpfsInode) : SpfsInode :=
  { i with lock := true, capacity := (i.capacity + 1) % 2 ^ 32, iDirty := true }

/-- The state in which the loop of `spfs_add_child` starts. -/
def countedWorld (w : World) (p : ℕ) (i : SpfsInode) : World :=
  (w.setInode p i.counted).addEvent (.lock p)

/-- The place that `spfs_add_child` finds in the directory `i`. -/
def placeIn (env : Env) (w : World) (i : SpfsInode) : Place :=
  addPlace env w.disk w.sbi.freeList env.fuel (w.time + 1) i.start

theorem run_spfsAddChild (hp : w.inodes p = some i) (hlock : i.lock = false) :
    (spfsAddChild env p child).run w =
      (do
        let res ← spfsAddChildLit env p child env.fuel i.start
        mutexUnlock p
        return res).run (countedWorld w p i) := by
  have hlocked := run_mutexLock_of hp hlock
  set w₁ := (w.setInode p { i with lock := true }).addEvent (.lock p) with hw₁
  have hp₁ : w₁.inodes p = some { i with lock := true } := Function.update_self _ _ _
  rw [spfsAddChild, EStateM.run_bind_of_ok hlocked, EStateM.run_bind_of_ok (run_modifyInode_of hp₁)]
  set w₂ := w₁.setInode p { i with lock := true, capacity := (i.capacity + 1) % 2 ^ 32 } with hw₂
  have hp₂ : w₂.inodes p = some { i with lock := true, capacity := (i.capacity + 1) % 2 ^ 32 } :=
    Function.update_self _ _ _
  have hw₃ : w₂.setInode p i.counted = countedWorld w p i := by
    rw [hw₂, World.setInode_setInode, hw₁, countedWorld]
    simp only [World.setInode, World.addEvent, Function.update_idem]
  have hp₃ : (countedWorld w p i).inodes p = some i.counted := Function.update_self _ _ _
  rw [EStateM.run_bind_of_ok (run_markInodeDirty_of hp₂)]
  have hdirty : w₂.setInode p { i with
      lock := true, capacity := (i.capacity + 1) % 2 ^ 32, iDirty := true } = countedWorld w p i := hw₃
  rw [hdirty, EStateM.run_bind_of_ok (run_getInode_of hp₃)]
  rfl

/-- The directory with one more child in its count. -/
def SpfsInode.withOneMore (i : SpfsInode) : SpfsInode :=
  { i with capacity := (i.capacity + 1) % 2 ^ 32, iDirty := true }

/-- What a call leaves: the directory `j`, the blocks and the free list. -/
structure DirStep (p : ℕ) (j : SpfsInode) (disk : ℕ → Block) (fl : FreeList) (w w' : World) : Prop where
  bSize : w'.bSize = w.bSize
  disk : w'.disk = disk
  sbi : w'.sbi = { w.sbi with freeList := fl }
  inodes : w'.inodes = Function.update w.inodes p (some j)
  slab : w'.slab = w.slab

theorem DirStep.others {j : SpfsInode} {disk : ℕ → Block} {fl : FreeList}
    (h : DirStep p j disk fl w w') (q : ℕ) (hq : q ≠ p) : w'.inodes q = w.inodes q := by
  rw [h.inodes]
  exact Function.update_of_ne hq _ _

/-- Every way the call can end, for each place. -/
inductive AddCall (p child : ℕ) (i : SpfsInode) (w : World) :
    Place → EStateM.Result Fault World ℤ → Prop where
  | slot {s : ℕ} {block : DirBlock} {w' : World} : s ≠ 0 → DirAt (w.disk s) block →
      spfsDirIsFull block = false → 12 + block.children * 8 ≤ w.bSize →
      DirStep p i.withOneMore (Function.update w.disk s (withChild w.bSize block child (w.disk s)))
        w.sbi.freeList w w' →
      Balanced w w' → AddCall p child i w (.slot s block) (.ok 0 w')
  | bug {s : ℕ} {block : DirBlock} {w' : World} : w.bSize < 12 + block.children * 8 →
      AddCall p child i w (.slot s block) (.error .bug w')
  | fresh {s : ℕ} {w' : World} : s ≠ 0 → s = (spfsFreeAlloc w.sbi.freeList 1).1 →
      DirStep p { i.withOneMore with start := s } (Function.update w.disk s
        (withChild w.bSize ⟨0, 0⟩ child (withDir ⟨0, 0⟩ (w.disk s))))
          (spfsFreeAlloc w.sbi.freeList 1).2 w w' →
      Balanced w w' → AddCall p child i w (.fresh s) (.ok 0 w')
  | unread {w' : World} : DirStep p i.withOneMore w.disk w.sbi.freeList w w' → Balanced w w' →
      AddCall p child i w .unread (.ok (- EIO) w')
  | garbled {s : ℕ} {w' : World} : DirStep p i.withOneMore w.disk w.sbi.freeList w w' →
      Takes (oneBuffer s) w w' → AddCall p child i w (.garbled s) (.ok (-EINVAL) w')
  | noBlock {w' : World} : DirStep p { i.withOneMore with start := 0 } w.disk
        (spfsFreeAlloc w.sbi.freeList 1).2 w w' →
      Balanced w w' → AddCall p child i w .noBlock (.ok (-EINVAL) w')
  | spent {w' : World} : AddCall p child i w .spent (.error .fuel w')

/-- The call starts and ends with the lock of the directory. What the loop left, with the
lock released, is what the call leaves, and it takes the buffers that the loop takes. -/
theorem spfsAddChild_returns {r : ℤ} {w₁ w₂ : World} {j : SpfsInode} {disk : ℕ → Block}
    {fl : FreeList} {d : ℕ → ℤ} (hp : w.inodes p = some i) (hlock : i.lock = false)
    (hlit : (spfsAddChildLit env p child env.fuel i.start).run (countedWorld w p i) = .ok r w₂)
    (hlogs : OnlyLogs w₁ w₂) (hstep : DirStep p j disk fl w w₁)
    (htakes : Takes d (countedWorld w p i) w₂) :
    ∃ w', (spfsAddChild env p child).run w = .ok r w' ∧
      DirStep p { j with lock := false } disk fl w w' ∧ Takes d w w' := by
  have hj : w₂.inodes p = some j := by
    rw [hlogs.inodes, hstep.inodes]
    exact Function.update_self _ _ _
  refine ⟨(w₂.setInode p { j with lock := false }).addEvent (.unlock p), ?_, ?_, ?_⟩
  · rw [run_spfsAddChild hp hlock, EStateM.run_bind_of_ok hlit,
      EStateM.run_bind_of_ok (run_mutexUnlock_of hj)]
    rfl
  · refine ⟨hlogs.bSize.trans hstep.bSize, hlogs.disk.trans hstep.disk, hlogs.sbi.trans hstep.sbi, ?_,
      hlogs.slab.trans hstep.slab⟩
    rw [World.addEvent_inodes, World.setInode_inodes, hlogs.inodes, hstep.inodes, Function.update_idem]
  · have hlocked : Balanced w (countedWorld w p i) :=
      (Takes.event (e := .lock p) (fun _ => rfl) w).of_log rfl rfl
    have hunlocked : Balanced w₂ ((w₂.setInode p { j with lock := false }).addEvent (.unlock p)) :=
      (Takes.event (e := .unlock p) (fun _ => rfl) w₂).of_log rfl rfl
    have hsum := (Takes.trans hlocked htakes).trans hunlocked
    rwa [zero_add, add_zero] at hsum

theorem spfsAddChild_call (env : Env) (child : ℕ) (hp : w.inodes p = some i) (hlock : i.lock = false) :
    AddCall p child i w (placeIn env w i) ((spfsAddChild env p child).run w) := by
  have hcounted : (countedWorld w p i).inodes p = some i.counted := Function.update_self _ _ _
  have hout := spfsAddChildLit_outcome env child env.fuel i.start hcounted
  have hplace : addPlace env (countedWorld w p i).disk (countedWorld w p i).sbi.freeList env.fuel
      (countedWorld w p i).time i.start = placeIn env w i := rfl
  have hone : { i.counted with lock := false } = i.withOneMore := by
    rw [SpfsInode.withOneMore, ← hlock]
    rfl
  have hnew (s : ℕ) : ({ i.counted with start := s, lock := false } : SpfsInode) =
      { i.withOneMore with start := s } := by
    rw [SpfsInode.withOneMore, ← hlock]
    rfl
  rw [hplace] at hout
  generalize hlit : (spfsAddChildLit env p child env.fuel i.start).run (countedWorld w p i) = r at hout
  generalize placeIn env w i = place at hout
  cases hout with
  | slot hs hdir hfull hfit hlogs hbal =>
    obtain ⟨w', hrun, hstep, hbal'⟩ := spfsAddChild_returns (j := i.counted) hp hlock hlit hlogs
      ⟨rfl, rfl, rfl, rfl, rfl⟩ hbal
    rw [hone] at hstep
    rw [hrun]
    exact .slot hs hdir hfull hfit hstep hbal'
  | bug hout =>
    rw [run_spfsAddChild hp hlock, EStateM.run_bind_of_error hlit]
    exact .bug hout
  | @fresh s _ hs hsel hlogs hbal =>
    obtain ⟨w', hrun, hstep, hbal'⟩ := spfsAddChild_returns (j := { i.counted with start := s }) hp
      hlock hlit hlogs ⟨rfl, rfl, rfl, by simp [countedWorld], rfl⟩ hbal
    rw [hnew] at hstep
    rw [hrun]
    exact .fresh hs hsel hstep hbal'
  | unread hlogs hbal =>
    obtain ⟨w', hrun, hstep, hbal'⟩ := spfsAddChild_returns (j := i.counted) hp hlock hlit hlogs
      ⟨rfl, rfl, rfl, rfl, rfl⟩ hbal
    rw [hone] at hstep
    rw [hrun]
    exact .unread hstep hbal'
  | garbled hlogs htakes =>
    obtain ⟨w', hrun, hstep, htakes'⟩ := spfsAddChild_returns (j := i.counted) hp hlock hlit hlogs
      ⟨rfl, rfl, rfl, rfl, rfl⟩ htakes
    rw [hone] at hstep
    rw [hrun]
    exact .garbled hstep htakes'
  | noBlock hlogs hbal =>
    obtain ⟨w', hrun, hstep, hbal'⟩ := spfsAddChild_returns (j := { i.counted with start := 0 }) hp
      hlock hlit hlogs ⟨rfl, rfl, rfl, by simp [countedWorld], rfl⟩ hbal
    rw [hnew] at hstep
    rw [hrun]
    exact .noBlock hstep hbal'
  | spent =>
    rw [run_spfsAddChild hp hlock, EStateM.run_bind_of_error hlit]
    exact .spent

theorem start_ne_of_slot (h : placeIn env w i = .slot s block) : i.start ≠ 0 := by
  intro hs
  rw [placeIn, hs, addPlace_zero, endPlace] at h
  split at h <;> cases h

/-- What the header of the first block says about the place. -/
theorem placeIn_of_start (env : Env) (hs : i.start ≠ 0) (hdir : DirAt (w.disk i.start) block) :
    placeIn env w i = .spent ∨ placeIn env w i = .unread ∨
      (spfsDirIsFull block = false ∧ placeIn env w i = .slot i.start block) ∨
      (spfsDirIsFull block = true ∧ ∃ n t,
        placeIn env w i = addPlace env w.disk w.sbi.freeList n t block.next) := by
  rw [placeIn]
  cases env.fuel with
  | zero =>
    rw [addPlace]
    · exact .inl rfl
    · exact hs
  | succ n =>
    rw [addPlace_of_ne hs, if_neg (not_not.mpr hdir.magic), hdir.eq]
    split
    · exact .inr (.inl rfl)
    cases hfull : spfsDirIsFull block with
    | false => exact .inr (.inr (.inl ⟨rfl, if_pos Bool.not_false⟩))
    | true => exact .inr (.inr (.inr ⟨rfl, n, _, if_neg (by simp)⟩))

end Runs

end Spfs
