-- SUMMARY: Every way a call of spfs_btree_insert can end, into the empty tree and into a tree with a root.
import Spfs.Btree.Root

/-!
# The outcomes of an insertion

An insertion into a tree with a root ends in the root node: the search hits an
entry of the same id, or the call does not return (`spfsBtreeInsert_rooted`).
Only the empty tree takes in an inode, and the new root node goes to the buffer of
block 0, the old `self->start` (`spfsBtreeInsert_first`).
-/

namespace Spfs

open EStateM (run_bind_of_ok run_bind_of_error run_check_of_true run_check_of_false)

/-! ## A tree with a root -/

/-- The search of a node hits an entry of `ino`, and the entry lies in the block. -/
def Duplicate (bSize : ℕ) (b : Block) (ino : ℕ) : Prop :=
  nodeLength b ≠ 0 ∧ nodeLength b ≤ 100 ∧
    ∃ j, HitAt bSize b ino j ∧ probe (nodeLength b) j + 8 + 8 ≤ bSize

section Rooted

variable {env : Env} {in_ : SpfsInode} {w : World}

/-- No insertion descends below a node. -/
theorem btreeInsertNode_cases (descend : ℕ → Kernel InsertResult) (s : ℕ) (w : World) :
    (Duplicate w.bSize (w.disk s) in_.iIno ∧
      ∃ out, (btreeInsertNode env descend in_ s).run w = .ok ⟨1, bubbleZero, out⟩ w) ∨
    (¬ Duplicate w.bSize (w.disk s) in_.iIno ∧
      ∃ f, (f = .bug ∨ f = .oob) ∧ (btreeInsertNode env descend in_ s).run w = .error f w) := by
  unfold btreeInsertNode
  rcases Nat.lt_or_ge 100 (nodeLength (w.disk s)) with hover | hcap
  · refine .inr ⟨fun hdup => by have := hdup.2.1; omega, .bug, .inl rfl, ?_⟩
    rw [run_bind_of_error (run_bnodeBinFindGte_over s in_.iIno hover)]
  rcases Nat.eq_zero_or_pos (nodeLength (w.disk s)) with hempty | hlen
  · refine .inr ⟨fun hdup => hdup.1 hempty, .bug, .inl rfl, ?_⟩
    have hchild : (bnodeChildLength s).run w = .ok 0 w := by
      rw [bnodeChildLength, run_bind_of_ok (run_bnodeLength hcap), hempty]
      rfl
    rw [run_bind_of_ok (run_bnodeBinFindGte_empty s in_.iIno hempty)]
    simp only
    rw [run_bind_of_ok hchild]
    rfl
  rcases run_bnodeBinFindGte s in_.iIno hlen hcap with ⟨j, hhit, hfind⟩ | ⟨hmiss, hfind⟩
  · rw [run_bind_of_ok hfind]
    simp only
    rw [run_bind_of_ok (run_bentryId hhit.inside), if_pos hhit.eq]
    by_cases hin : probe (nodeLength (w.disk s)) j + 8 + 8 ≤ w.bSize
    · refine .inl ⟨⟨Nat.ne_of_gt hlen, hcap, j, hhit, hin⟩,
        offsetAt (w.disk s) (probe (nodeLength (w.disk s)) j), ?_⟩
      rw [run_bind_of_ok (run_bentryOffset hin)]
      rfl
    · refine .inr ⟨fun hdup => ?_, .oob, .inr rfl, ?_⟩
      · obtain ⟨j', hhit', hin'⟩ := hdup.2.2
        rw [hhit'.unique hhit] at hin'
        exact hin hin'
      · rw [run_bind_of_error (run_bentryOffset_oob hin)]
  · refine .inr ⟨fun hdup => ?_, .oob, .inr rfl, ?_⟩
    · obtain ⟨j, hhit, -⟩ := hdup.2.2
      exact hmiss j hhit
    · rw [run_bind_of_error hfind]

theorem btreeInsert_cases (env : Env) (in_ : SpfsInode) (levels s : ℕ) (w : World) :
    (Duplicate w.bSize (w.disk s) in_.iIno ∧
      ∃ out, (btreeInsert env in_ levels s).run w = .ok ⟨1, bubbleZero, out⟩ w) ∨
    (¬ Duplicate w.bSize (w.disk s) in_.iIno ∧
      ∃ f, (f = .bug ∨ f = .oob) ∧ (btreeInsert env in_ levels s).run w = .error f w) := by
  cases levels <;> exact btreeInsertNode_cases _ s w

/-- Every outcome of an insertion into a tree with a root; none of them changes more
than the log. -/
inductive RootedInsert (env : Env) (in_ : SpfsInode) (w : World) :
    EStateM.Result Fault World ℤ → Prop where
  | unread {w' : World} :
      env.ioOk w.time w.sbi.tree.start = false → OnlyLogs w w' →
      RootedInsert env in_ w (.ok (- EIO) w')
  | duplicate {w' : World} :
      env.ioOk w.time w.sbi.tree.start = true →
      Duplicate w.bSize (w.disk w.sbi.tree.start) in_.iIno → OnlyLogs w w' →
      RootedInsert env in_ w (.ok 1 w')
  | stuck {f : Fault} {w' : World} :
      env.ioOk w.time w.sbi.tree.start = true →
      ¬ Duplicate w.bSize (w.disk w.sbi.tree.start) in_.iIno → OnlyLogs w w' →
      RootedInsert env in_ w (.error f w')

theorem spfsBtreeInsert_rooted (env : Env) (in_ : SpfsInode) (hstart : w.sbi.tree.start ≠ 0) :
    RootedInsert env in_ w ((spfsBtreeInsert env in_).run w) := by
  rw [spfsBtreeInsert, run_bind_of_ok (EStateM.run_get w), if_pos hstart]
  set start := w.sbi.tree.start
  have hlog (e : Event) : OnlyLogs w (w.addEvent e) := IgnoresLog.addEvent w e
  by_cases hio : env.ioOk w.time start
  case neg =>
    have hio' := Bool.eq_false_iff.mpr hio
    rw [run_check_of_false (run_sbBread_failed hio')]
    exact .unread hio' (hlog _)
  rw [run_check_of_true (run_sbBread_ok hio)]
  rcases btreeInsert_cases env in_ env.fuel start
    (w.addEvent (.bread start true)) with ⟨hdup, out, hrun⟩ | ⟨hdup, f, -, hrun⟩
  · rw [run_bind_of_ok hrun]
    exact .duplicate hio hdup ⟨[.brelse start, .dirty start, .bread start true], rfl⟩
  · rw [run_bind_of_error hrun]
    exact .stuck hio hdup (hlog _)

theorem RootedInsert.onlyLogs {r : EStateM.Result Fault World ℤ} (h : RootedInsert env in_ w r) :
    OnlyLogs w r.final := by
  cases h <;> assumption

/-- A tree with a root takes in no inode. -/
theorem RootedInsert.ne_zero {res : ℤ} {w' : World} (h : RootedInsert env in_ w (.ok res w')) :
    res ≠ 0 := by
  cases h <;> decide

/-- A state with a root is left alone, up to the log. -/
def RootedFrame (w w' : World) : Prop := w.sbi.tree.start ≠ 0 → OnlyLogs w w'

instance : IsPreorder World RootedFrame where
  refl w _ := refl_of OnlyLogs w
  trans w₁ w₂ w₃ h h' hstart := by
    have h₁ := h hstart
    exact trans_of OnlyLogs h₁ (h' (by rw [h₁.sbi]; exact hstart))

theorem spfsBtreeInsert_rootedFrame (env : Env) (in_ : SpfsInode) :
    EStateM.Within RootedFrame (spfsBtreeInsert env in_) :=
  fun _ hstart => (spfsBtreeInsert_rooted env in_ hstart).onlyLogs

end Rooted

/-! ## The empty tree -/

section FirstInsert

/-- The block the record goes to. -/
def recordPage (w : World) : ℕ := (spfsFreeAlloc w.sbi.freeList w.sbi.tree.blocks).1

def listAfterPage (w : World) : FreeList := (spfsFreeAlloc w.sbi.freeList w.sbi.tree.blocks).2

/-- The block that becomes `tree.start`. -/
def rootPage (w : World) : ℕ := (spfsFreeAlloc (listAfterPage w) w.sbi.tree.blocks).1

def listAfterRoot (w : World) : FreeList := (spfsFreeAlloc (listAfterPage w) w.sbi.tree.blocks).2

variable (env : Env) (in_ : SpfsInode) (w : World)

/-- The record is stored in its block. -/
def recorded : World :=
  (w.setFreeList (listAfterPage w)).setBlock (recordPage w)
    (withRecord (env.stack (w.time + 2)) in_ (w.disk (recordPage w)))

/-- The tree starts at the block allocated for the root, and block 0 holds `b`. -/
def rooted (b : Block) : World :=
  (((recorded env in_ w).setFreeList (listAfterRoot w)).setTreeStart (rootPage w)).setBlock 0 b

/-- The event of the allocation for the record. -/
def pageEvent (w : World) : Event := .alloc (recordPage w) w.sbi.tree.blocks

/-- Every outcome of an insertion into the empty tree. -/
inductive FirstInsert : EStateM.Result Fault World ℤ → Prop where
  | noPage {w' : World} :
      recordPage w = 0 → OnlyLogs (w.setFreeList (listAfterPage w)) w' → FirstInsert (.ok 1 w')
  | pageUnread {w' : World} :
      recordPage w ≠ 0 → env.ioOk (w.time + 1) (recordPage w) = false →
      OnlyLogsWith (pageEvent w) (w.setFreeList (listAfterPage w)) w' → FirstInsert (.ok (- EIO) w')
  | zeroId {w' : World} :
      recordPage w ≠ 0 → env.ioOk (w.time + 1) (recordPage w) = true →
      in_.iIno % 2 ^ 32 = 0 → OnlyLogsWith (pageEvent w) (recorded env in_ w) w' →
      FirstInsert (.ok 0 w')
  | noRoot {w' : World} :
      recordPage w ≠ 0 → env.ioOk (w.time + 1) (recordPage w) = true →
      in_.iIno % 2 ^ 32 ≠ 0 → rootPage w = 0 →
      OnlyLogsWith (pageEvent w) ((recorded env in_ w).setFreeList (listAfterRoot w)) w' →
      FirstInsert (.error .bug w')
  | rootUnread {w' : World} :
      recordPage w ≠ 0 → env.ioOk (w.time + 1) (recordPage w) = true →
      in_.iIno % 2 ^ 32 ≠ 0 → rootPage w ≠ 0 → env.ioOk (w.time + 5) 0 = false →
      OnlyLogsWith (pageEvent w) ((recorded env in_ w).setFreeList (listAfterRoot w)) w' →
      FirstInsert (.error .bug w')
  | overrun {w' : World} {b : Block} :
      recordPage w ≠ 0 → env.ioOk (w.time + 1) (recordPage w) = true →
      in_.iIno % 2 ^ 32 ≠ 0 → rootPage w ≠ 0 → env.ioOk (w.time + 5) 0 = true →
      w.bSize < 1620 → nodeLength b ≤ 1 → OnlyLogsWith (pageEvent w) (rooted env in_ w b) w' →
      FirstInsert (.error .oob w')
  | inserted {w' : World} {b : Block} :
      recordPage w ≠ 0 → env.ioOk (w.time + 1) (recordPage w) = true →
      in_.iIno % 2 ^ 32 ≠ 0 → rootPage w ≠ 0 → env.ioOk (w.time + 5) 0 = true →
      1620 ≤ w.bSize → nodeLength b = 1 → OnlyLogsWith (pageEvent w) (rooted env in_ w b) w' →
      FirstInsert (.ok 0 w')

variable {env in_ w}

/-- What the allocation for the record leaves. -/
theorem run_freeAlloc_page (hpage : recordPage w ≠ 0) :
    (freeAlloc w.sbi.tree.blocks).run w =
      .ok (recordPage w)
        ((w.setFreeList (listAfterPage w)).addEvent (.alloc (recordPage w) w.sbi.tree.blocks)) := by
  rw [run_freeAlloc]
  simp only [recordPage] at hpage
  simp [hpage, listAfterPage, recordPage]

theorem run_btreeInsertNew_noPage (hpage : recordPage w = 0) :
    (btreeInsertNew env in_).run w = .ok ⟨1, bubbleZero, 0⟩ (w.setFreeList (listAfterPage w)) := by
  rw [btreeInsertNew, run_bind_of_ok (EStateM.run_get w), EStateM.run_bind_match, run_freeAlloc]
  simp only [recordPage] at hpage
  simp [hpage, listAfterPage]

theorem run_btreeInsertNew_unread (hpage : recordPage w ≠ 0)
    (hio : env.ioOk (w.time + 1) (recordPage w) = false) :
    (btreeInsertNew env in_).run w = .ok ⟨- EIO, bubbleZero, 0⟩
      { w.setFreeList (listAfterPage w) with
        log := [.bread (recordPage w) false, .alloc (recordPage w) w.sbi.tree.blocks] ++
          w.log } := by
  rw [btreeInsertNew, run_bind_of_ok (EStateM.run_get w),
    run_bind_of_ok (run_freeAlloc_page hpage), if_neg hpage,
    run_check_of_false (run_sbBread_failed hio)]
  rfl

/-- The record of a new inode is stored and a bubble with its entry comes back. -/
theorem run_btreeInsertNew (hpage : recordPage w ≠ 0)
    (hio : env.ioOk (w.time + 1) (recordPage w) = true) :
    (btreeInsertNew env in_).run w =
      .ok ⟨0, bubbleMake in_.iIno (recordPage w) 0, recordPage w⟩
        { recorded env in_ w with
          log := [.brelse (recordPage w), .dirty (recordPage w), .bread (recordPage w) true,
            .alloc (recordPage w) w.sbi.tree.blocks] ++ w.log } := by
  set w₁ := (w.setFreeList (listAfterPage w)).addEvent (.alloc (recordPage w) w.sbi.tree.blocks)
  have hread : (sbBread env (recordPage w)).run w₁ =
      .ok true (w₁.addEvent (.bread (recordPage w) true)) :=
    run_sbBread_ok hio
  set w₂ := w₁.addEvent (.bread (recordPage w) true)
  have hmake : (makeBuf (recordPage w) 0 (spfsInodeMake (env.stack (w.time + 2)) in_)).run w₂ =
      .ok (0, 294) (w₂.setBlock (recordPage w)
        (withRecord (env.stack (w.time + 2)) in_ (w.disk (recordPage w)))) := by
    rw [run_makeBuf, run_spfsInodeMake w₂.le_bSize]
    rfl
  rw [btreeInsertNew, run_bind_of_ok (EStateM.run_get w), run_bind_of_ok (run_freeAlloc_page hpage),
    if_neg hpage, run_check_of_true hread, run_bind_of_ok (EStateM.run_get w₂),
    show w₂.time = w.time + 2 from rfl, run_bind_of_ok hmake]
  rfl

/-- A root that could not be made is a bug. -/
theorem run_insertRoot {res n : ℤ} {bubble : BtreeBubble} {out : ℕ} {w' : World}
    (hactive : bubbleIsActive bubble = true)
    (hroot : (bnodeAllocRoot env bubble).run w = .ok n w') :
    (spfsBtreeInsert.insertRoot env ⟨res, bubble, out⟩).run w =
      if n = 0 then .ok res w' else .error .bug w' := by
  rw [spfsBtreeInsert.insertRoot, if_pos hactive, run_bind_of_ok hroot]
  by_cases hn : n = 0
  · rw [if_pos hn, run_bind_of_ok (by rw [run_bugOn, if_neg (not_not.mpr hn)])]
    rfl
  · rw [if_neg hn, run_bind_of_error (by rw [run_bugOn, if_pos hn])]

theorem run_insertRoot_of_error {res : ℤ} {bubble : BtreeBubble} {out : ℕ} {f : Fault}
    {w' : World} (hactive : bubbleIsActive bubble = true)
    (hroot : (bnodeAllocRoot env bubble).run w = .error f w') :
    (spfsBtreeInsert.insertRoot env ⟨res, bubble, out⟩).run w = .error f w' := by
  rw [spfsBtreeInsert.insertRoot, if_pos hactive, run_bind_of_error hroot]

theorem spfsBtreeInsert_first (env : Env) (in_ : SpfsInode) (hstart : w.sbi.tree.start = 0) :
    FirstInsert env in_ w ((spfsBtreeInsert env in_).run w) := by
  rw [spfsBtreeInsert, run_bind_of_ok (EStateM.run_get w), if_neg (not_not.mpr hstart)]
  by_cases hpage : recordPage w = 0
  · rw [run_bind_of_ok (run_btreeInsertNew_noPage hpage)]
    exact .noPage hpage (refl_of OnlyLogs _)
  by_cases hio : env.ioOk (w.time + 1) (recordPage w)
  case neg =>
    have hio' := Bool.eq_false_iff.mpr hio
    rw [run_bind_of_ok (run_btreeInsertNew_unread hpage hio')]
    exact .pageUnread hpage hio' ⟨_, by simp [pageEvent], rfl⟩
  rw [run_bind_of_ok (run_btreeInsertNew hpage hio)]
  set w₁ : World := { recorded env in_ w with
    log := [.brelse (recordPage w), .dirty (recordPage w), .bread (recordPage w) true,
      .alloc (recordPage w) w.sbi.tree.blocks] ++ w.log }
  have hlogs : OnlyLogsWith (pageEvent w) (recorded env in_ w) w₁ :=
    ⟨_, by simp [pageEvent], rfl⟩
  by_cases hid : in_.iIno % 2 ^ 32 = 0
  · have hinactive : bubbleIsActive (bubbleMake in_.iIno (recordPage w) 0) ≠ true := by
      rw [Ne, bubbleIsActive_make]
      exact not_not.mpr hid
    rw [spfsBtreeInsert.insertRoot, if_neg hinactive]
    exact .zeroId hpage hio hid hlogs
  have hactive : bubbleIsActive (bubbleMake in_.iIno (recordPage w) 0) = true :=
    (bubbleIsActive_make _ _ _).mpr hid
  have hstart₁ : w₁.sbi.tree.start = 0 := hstart
  have halloc : spfsFreeAlloc w₁.sbi.freeList w₁.sbi.tree.blocks = (rootPage w, listAfterRoot w) :=
    rfl
  have htime : w₁.time = w.time + 4 := by simp [w₁, World.time]
  by_cases hroot : rootPage w = 0
  · have hnroot : (bnodeAllocRoot env (bubbleMake in_.iIno (recordPage w) 0)).run w₁ =
        .ok (-ENOMEM) (w₁.setFreeList (listAfterRoot w)) := by
      rw [bnodeAllocRoot, run_bind_of_ok (EStateM.run_get w₁), run_bind_of_ok (EStateM.run_get w₁),
        EStateM.run_bind_match, run_freeAlloc, halloc]
      simp [hroot]
    rw [run_insertRoot hactive hnroot, if_neg (by decide)]
    exact .noRoot hpage hio hid hroot (hlogs.setFreeList _)
  by_cases hio' : env.ioOk (w.time + 5) 0
  case neg =>
    have hio₀ := Bool.eq_false_iff.mpr hio'
    set w₂ := (w₁.setFreeList (listAfterRoot w)).addEvent (.alloc (rootPage w) w.sbi.tree.blocks)
    have hallocRun : (freeAlloc w₁.sbi.tree.blocks).run w₁ = .ok (rootPage w) w₂ := by
      rw [run_freeAlloc, halloc]
      simp only [hroot, ne_eq, not_false_eq_true, if_true]
      rfl
    have hread : (sbBread env 0).run w₂ = .ok false (w₂.addEvent (.bread 0 false)) :=
      run_sbBread_failed hio₀
    have hnroot : (bnodeAllocRoot env (bubbleMake in_.iIno (recordPage w) 0)).run w₁ =
        .ok (- EIO) (w₂.addEvent (.bread 0 false)) := by
      rw [bnodeAllocRoot, run_bind_of_ok (EStateM.run_get w₁), run_bind_of_ok (EStateM.run_get w₁),
        run_bind_of_ok hallocRun, if_neg hroot, hstart₁, run_check_of_false hread]
    rw [run_insertRoot hactive hnroot, if_neg (by decide)]
    exact .rootUnread hpage hio hid hroot hio₀ ((hlogs.setFreeList _).trans_onlyLogs
      ⟨[.bread 0 false, .alloc (rootPage w) w.sbi.tree.blocks], rfl⟩)
  -- the new root is built in block 0, where the empty tree starts
  have hfinal (b : Block) {w' : World} (h : OnlyLogs (regrown w₁ (rootPage w) (listAfterRoot w) b) w') :
      OnlyLogsWith (pageEvent w) (rooted env in_ w b) w' := by
    rw [regrown, hstart₁] at h
    exact (((hlogs.setFreeList (listAfterRoot w)).setTreeStart
      (rootPage w)).setBlock 0 b).trans_onlyLogs h
  rcases run_bnodeAllocRoot env (bubbleMake in_.iIno (recordPage w) 0) halloc hroot
    (by rw [htime, hstart₁]; exact hio') with
    ⟨hbig, w', hlogs', -, hrun⟩ | ⟨hsmall, b, w', hb, hlogs', hrun⟩
  · rw [run_insertRoot hactive hrun, if_pos rfl]
    exact .inserted hpage hio hid hroot hio' hbig (by simp [grownRoot]) (hfinal _ hlogs')
  · rw [run_insertRoot_of_error hactive hrun]
    exact .overrun hpage hio hid hroot hio' hsmall hb (hfinal _ hlogs')

end FirstInsert

/-! ## What a call comes to -/

/-- The tree takes the inode in: it is empty and gets a block for the record and, unless the
id counts as none, one for the root. -/
structure TakesIn (env : Env) (in_ : SpfsInode) (w : World) : Prop where
  start : w.sbi.tree.start = 0
  page : recordPage w ≠ 0
  pageRead : env.ioOk (w.time + 1) (recordPage w) = true
  root : in_.iIno % 2 ^ 32 ≠ 0 → rootPage w ≠ 0 ∧ env.ioOk (w.time + 5) 0 = true ∧ 1620 ≤ w.bSize

/-- The super block after the inode was taken in. -/
def superAfterInsert (in_ : SpfsInode) (w : World) : SuperBlock :=
  if in_.iIno % 2 ^ 32 = 0 then (w.setFreeList (listAfterPage w)).sbi
  else ((w.setFreeList (listAfterRoot w)).setTreeStart (rootPage w)).sbi

/-- What is left once the tree has taken the inode in. Of block 0, in which the root was
built, only the length of the node is told. -/
structure TakenIn (env : Env) (in_ : SpfsInode) (w w' : World) : Prop where
  bSize : w'.bSize = w.bSize
  disk : ∀ s ≠ 0, w'.disk s = (recorded env in_ w).disk s
  root : in_.iIno % 2 ^ 32 ≠ 0 → nodeLength (w'.disk 0) = 1
  sbi : w'.sbi = superAfterInsert in_ w
  inodes : w'.inodes = w.inodes
  time : w'.time = w.time + if in_.iIno % 2 ^ 32 = 0 then 4 else 8

/-- Every way a call can end. -/
inductive InsertEnd (env : Env) (in_ : SpfsInode) (w : World) : EStateM.Result Fault World ℤ → Prop where
  | taken {w' : World} : TakesIn env in_ w → TakenIn env in_ w w' → InsertEnd env in_ w (.ok 0 w')
  | refused {res : ℤ} {w' : World} (fl : FreeList) : ¬ TakesIn env in_ w → res ≠ 0 →
      OnlyLogs (w.setFreeList fl) w' → InsertEnd env in_ w (.ok res w')
  | fault {f : Fault} {w' : World} : ¬ TakesIn env in_ w → f = .bug ∨ f = .oob →
      InsertEnd env in_ w (.error f w')

section Ends

variable {env : Env} {in_ : SpfsInode} {w : World}

/-- The state after the record was stored, with what was logged till then. -/
theorem TakesIn.taken (h : TakesIn env in_ w) :
    ∃ w', (spfsBtreeInsert env in_).run w = .ok 0 w' ∧ TakenIn env in_ w w' := by
  rw [spfsBtreeInsert, run_bind_of_ok (EStateM.run_get w), if_neg (not_not.mpr h.start),
    run_bind_of_ok (run_btreeInsertNew h.page h.pageRead)]
  set w₁ : World := { recorded env in_ w with
    log := [.brelse (recordPage w), .dirty (recordPage w), .bread (recordPage w) true,
      .alloc (recordPage w) w.sbi.tree.blocks] ++ w.log }
  have htime : w₁.time = w.time + 4 := by simp [w₁, World.time]
  by_cases hid : in_.iIno % 2 ^ 32 = 0
  · have hinactive : bubbleIsActive (bubbleMake in_.iIno (recordPage w) 0) ≠ true := by
      rw [Ne, bubbleIsActive_make]
      exact not_not.mpr hid
    rw [spfsBtreeInsert.insertRoot, if_neg hinactive]
    refine ⟨w₁, rfl, rfl, fun _ _ => rfl, fun hne => absurd hid hne, ?_, rfl, ?_⟩
    · rw [superAfterInsert, if_pos hid]
      rfl
    · rw [if_pos hid, htime]
  · obtain ⟨hroot, hread, hbig⟩ := h.root hid
    have hactive : bubbleIsActive (bubbleMake in_.iIno (recordPage w) 0) = true :=
      (bubbleIsActive_make _ _ _).mpr hid
    have hstart₁ : w₁.sbi.tree.start = 0 := h.start
    have halloc : spfsFreeAlloc w₁.sbi.freeList w₁.sbi.tree.blocks = (rootPage w, listAfterRoot w) :=
      rfl
    rcases run_bnodeAllocRoot env (bubbleMake in_.iIno (recordPage w) 0) halloc hroot
      (by rw [htime, hstart₁]; exact hread) with
      ⟨-, w', hlogs, htime', hrun⟩ | ⟨hsmall, -⟩
    · rw [run_insertRoot hactive hrun, if_pos rfl]
      refine ⟨w', rfl, hlogs.bSize, fun s hs => ?_, fun _ => ?_, ?_, hlogs.inodes, ?_⟩
      · rw [hlogs.disk, regrown, hstart₁]
        exact Function.update_of_ne hs _ _
      · rw [hlogs.disk, regrown, hstart₁]
        simp [grownRoot]
      · rw [superAfterInsert, if_neg hid, hlogs.sbi]
        rfl
      · rw [if_neg hid, htime', htime]
    · exact absurd hbig (Nat.not_le.mpr hsmall)

theorem spfsBtreeInsert_ends (env : Env) (in_ : SpfsInode) (w : World) :
    InsertEnd env in_ w ((spfsBtreeInsert env in_).run w) := by
  by_cases htakes : TakesIn env in_ w
  · obtain ⟨w', hrun, htaken⟩ := htakes.taken
    rw [hrun]
    exact .taken htakes htaken
  by_cases hstart : w.sbi.tree.start = 0
  · have hfirst := spfsBtreeInsert_first env in_ hstart
    generalize (spfsBtreeInsert env in_).run w = r at hfirst ⊢
    cases hfirst with
    | noPage _ hlogs => exact .refused _ htakes (by decide) hlogs
    | pageUnread _ _ hlogs => exact .refused _ htakes (by decide) hlogs.onlyLogs
    | zeroId hpage hread hid => exact absurd ⟨hstart, hpage, hread, fun hne => absurd hid hne⟩ htakes
    | noRoot => exact .fault htakes (.inl rfl)
    | rootUnread => exact .fault htakes (.inl rfl)
    | overrun => exact .fault htakes (.inr rfl)
    | inserted hpage hread _ hroot hread₀ hbig =>
      exact absurd ⟨hstart, hpage, hread, fun _ => ⟨hroot, hread₀, hbig⟩⟩ htakes
  · rw [spfsBtreeInsert, run_bind_of_ok (EStateM.run_get w), if_pos hstart]
    set start := w.sbi.tree.start
    by_cases hio : env.ioOk w.time start
    case neg =>
      have hio' := Bool.eq_false_iff.mpr hio
      rw [run_check_of_false (run_sbBread_failed hio')]
      exact .refused w.sbi.freeList htakes (by decide) ⟨[_], rfl⟩
    rw [run_check_of_true (run_sbBread_ok hio)]
    rcases btreeInsert_cases env in_ env.fuel start
      (w.addEvent (.bread start true)) with ⟨-, out, hrun⟩ | ⟨-, f, hf, hrun⟩
    · rw [run_bind_of_ok hrun]
      exact .refused w.sbi.freeList htakes Int.one_ne_zero
        ⟨[.brelse start, .dirty start, .bread start true], rfl⟩
    · rw [run_bind_of_error hrun]
      exact .fault htakes hf

end Ends

end Spfs
