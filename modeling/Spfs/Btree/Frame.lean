-- SUMMARY: What an insertion leaves alone: everything but its own blocks, unless it builds the first root.
import Spfs.Btree.InsertSpec
import Spfs.Btree.Walk

/-!
# The frame of an insertion

An insertion may write to the nodes of the tree and to the blocks it allocates. It
keeps to them, except that the first root is built in block 0: the empty tree starts
at sector 0, which is the sector of the super block.
-/

namespace Spfs

/-- `spfs_free_alloc` returned the block between the two states; 0 is its failure. -/
def HandedOut (w w' : World) (s : ℕ) : Prop :=
  s ≠ 0 ∧ ∃ es n, w'.log = es ++ w.log ∧ .alloc s n ∈ es

/-- No block changes between the two states but nodes of the tree and blocks that were
handed out, and no key is lost. -/
structure FrameKept (w w' : World) : Prop where
  blocks : ∀ s, ¬ ReachesNode w.disk w.sbi.tree.start s → ¬ HandedOut w w' s →
    w'.disk s = w.disk s
  keys : ∀ ino offset, HasEntry w.disk w.sbi.tree.start ino offset →
    ∃ offset', HasEntry w'.disk w'.sbi.tree.start ino offset'

/-- The insertion gets as far as clearing a block for the first root: the tree is empty,
both allocations succeed, both blocks can be read, and the id is not 0. -/
structure BuildsRoot (env : Env) (in_ : SpfsInode) (w : World) : Prop where
  start : w.sbi.tree.start = 0
  id : in_.iIno % 2 ^ 32 ≠ 0
  page : recordPage w ≠ 0
  pageRead : env.ioOk (w.time + 1) (recordPage w) = true
  root : rootPage w ≠ 0
  rootRead : env.ioOk (w.time + 5) 0 = true

/-- The states that insertions lead to. -/
inductive ReachedByInserts (env : Env) (w₀ : World) : World → Prop where
  | init : ReachedByInserts env w₀ w₀
  | step {w w' : World} {in_ : SpfsInode} {res : ℤ} : ReachedByInserts env w₀ w →
      (spfsBtreeInsert env in_).run w = .ok res w' → ReachedByInserts env w₀ w'

section Frame

variable {env : Env} {in_ : SpfsInode} {w w' : World}

theorem ReachesNode.start_ne {disk : ℕ → Block} {start s : ℕ} (h : ReachesNode disk start s) :
    start ≠ 0 := by
  induction h with
  | root h => exact h
  | child _ _ _ _ ih => exact ih

/-- The empty tree has no keys. -/
theorem not_hasEntry_of_empty {disk : ℕ → Block} {start ino offset : ℕ} (hstart : start = 0) :
    ¬ HasEntry disk start ino offset := by
  rintro ⟨s, i, hreach, -⟩
  exact hreach.start_ne hstart

/-- A first insertion that stops short of the root writes to the block of the record at
most. -/
theorem frame_of_not_buildsRoot (hstart : w.sbi.tree.start = 0) (h : ¬ BuildsRoot env in_ w) :
    ((spfsBtreeInsert env in_).run w).final.sbi.tree.start = 0 ∧
      ∀ s, ¬ HandedOut w ((spfsBtreeInsert env in_).run w).final s →
        ((spfsBtreeInsert env in_).run w).final.disk s = w.disk s := by
  have hfirst := spfsBtreeInsert_first env in_ hstart
  generalize (spfsBtreeInsert env in_).run w = r at hfirst ⊢
  -- once the record is stored, its block was handed out
  have hrecorded {w₁ : World} (hevent : OnlyLogsWith (pageEvent w) w₁ r.final)
      (hne : recordPage w ≠ 0) (hdisk : w₁.disk = (recorded env in_ w).disk)
      (hlog : w₁.log = w.log) (s : ℕ) (hs : ¬ HandedOut w r.final s) :
      r.final.disk s = w.disk s := by
    have hpage : s ≠ recordPage w := by
      rintro rfl
      obtain ⟨es, hmem, heq⟩ := hevent
      exact hs ⟨hne, es, _, by rw [heq, ← hlog], hmem⟩
    rw [hevent.onlyLogs.disk, hdisk]
    simp [recorded, hpage]
  cases hfirst with
  | noPage _ hlogs => exact ⟨hlogs.sbi ▸ hstart, fun s _ => congrFun hlogs.disk s⟩
  | pageUnread _ _ hlogs =>
    exact ⟨hlogs.onlyLogs.sbi ▸ hstart, fun s _ => congrFun hlogs.onlyLogs.disk s⟩
  | zeroId hne _ _ hlogs => exact ⟨hlogs.onlyLogs.sbi ▸ hstart, hrecorded hlogs hne rfl rfl⟩
  | noRoot hne _ _ _ hlogs => exact ⟨hlogs.onlyLogs.sbi ▸ hstart, hrecorded hlogs hne rfl rfl⟩
  | rootUnread hne _ _ _ _ hlogs =>
    exact ⟨hlogs.onlyLogs.sbi ▸ hstart, hrecorded hlogs hne rfl rfl⟩
  | overrun hne hread hid hroot hread₀ => exact absurd ⟨hstart, hid, hne, hread, hroot, hread₀⟩ h
  | inserted hne hread hid hroot hread₀ => exact absurd ⟨hstart, hid, hne, hread, hroot, hread₀⟩ h

/-- The first root goes to block 0. -/
theorem BuildsRoot.nodeLength_le (h : BuildsRoot env in_ w) :
    nodeLength (((spfsBtreeInsert env in_).run w).final.disk 0) ≤ 1 := by
  have hfirst := spfsBtreeInsert_first env in_ h.start
  generalize (spfsBtreeInsert env in_).run w = r at hfirst ⊢
  cases hfirst with
  | noPage hpage => exact absurd hpage h.page
  | pageUnread _ hread => simp [h.pageRead] at hread
  | zeroId _ _ hid => exact absurd hid h.id
  | noRoot _ _ _ hroot => exact absurd hroot h.root
  | rootUnread _ _ _ _ hread => simp [h.rootRead] at hread
  | overrun _ _ _ _ _ _ hb hlogs =>
    rw [EStateM.Result.final_error, hlogs.onlyLogs.disk]
    simpa [rooted] using hb
  | inserted _ _ _ _ _ _ hb hlogs =>
    rw [EStateM.Result.final_ok, hlogs.onlyLogs.disk]
    simp [rooted, hb]

/-- One insertion, into any state whose block 0 holds the super block while the tree is
empty. -/
theorem frameKept_iff
    (hmagic : w.sbi.tree.start = 0 → nodeLength (w.disk 0) = spookyFsSuperMagic) :
    FrameKept w ((spfsBtreeInsert env in_).run w).final ↔ ¬ BuildsRoot env in_ w := by
  by_cases hstart : w.sbi.tree.start = 0
  case neg =>
    -- a tree with a root is left alone
    have hlogs : OnlyLogs w ((spfsBtreeInsert env in_).run w).final :=
      spfsBtreeInsert_rootedFrame env in_ w hstart
    refine ⟨fun _ hroot => hstart hroot.start, fun _ => ⟨fun s _ _ => congrFun hlogs.disk s, ?_⟩⟩
    intro ino offset hentry
    rw [hlogs.disk, hlogs.sbi]
    exact ⟨offset, hentry⟩
  constructor
  · intro hkept hroot
    have hzero := hkept.blocks 0 (fun hreach => hreach.start_ne hstart) (fun hhanded => hhanded.1 rfl)
    have hle := hroot.nodeLength_le
    rw [hzero, hmagic hstart] at hle
    exact absurd hle (by decide)
  · intro hroot
    obtain ⟨-, hframe⟩ := frame_of_not_buildsRoot hstart hroot
    exact ⟨fun s _ => hframe s, fun _ _ hentry => absurd hentry (not_hasEntry_of_empty hstart)⟩

/-- As long as the tree is empty block 0 is what it was. -/
theorem ReachedByInserts.block_zero {w₀ : World} (h : ReachedByInserts env w₀ w)
    (hstart : w.sbi.tree.start = 0) : w.disk 0 = w₀.disk 0 := by
  induction h with
  | init => rfl
  | @step w w' in_ res hreached hrun ih =>
    by_cases hroot : w.sbi.tree.start = 0
    case neg =>
      have hlogs := (spfsBtreeInsert_rootedFrame env in_).of_ok hrun hroot
      rw [hlogs.sbi] at hstart
      exact absurd hstart hroot
    have hnot : ¬ BuildsRoot env in_ w := by
      intro hbuilds
      have hfirst := spfsBtreeInsert_first env in_ hroot
      rw [hrun] at hfirst
      cases hfirst with
      | noPage hpage => exact hbuilds.page hpage
      | pageUnread _ hread => simp [hbuilds.pageRead] at hread
      | zeroId _ _ hid => exact hbuilds.id hid
      | inserted _ _ _ hne _ _ _ hlogs =>
        rw [hlogs.onlyLogs.sbi] at hstart
        exact hne hstart
    obtain ⟨-, hframe⟩ := frame_of_not_buildsRoot hroot hnot
    rw [hrun] at hframe
    exact (hframe 0 fun hhanded => hhanded.1 rfl).trans (ih hroot)

/-- In every state that insertions lead to on a mounted device, one more insertion keeps
to its own blocks exactly when it does not build the first root. -/
theorem spfsBtreeInsert_frameKept_iff {w₀ : World}
    (hmagic : beDecode ((w₀.disk 0).read 0 4) = spookyFsSuperMagic)
    (hreached : ReachedByInserts env w₀ w) :
    FrameKept w ((spfsBtreeInsert env in_).run w).final ↔ ¬ BuildsRoot env in_ w := by
  refine frameKept_iff fun hroot => ?_
  rw [hreached.block_zero hroot]
  exact hmagic

theorem spfsBtreeInsert_frameKept_iff_fresh :
    FrameKept freshWorld ((spfsBtreeInsert (.calm 9) (plainFile 1)).run freshWorld).final ↔
      ¬ BuildsRoot (.calm 9) (plainFile 1) freshWorld :=
  spfsBtreeInsert_frameKept_iff (by decide) .init

/-- The first insertion into a fresh device writes over the super block. -/
theorem not_frameKept_fresh :
    freshWorld.sbi.tree.start = 0 ∧
      ¬ FrameKept freshWorld ((spfsBtreeInsert (.calm 9) (plainFile 1)).run freshWorld).final := by
  refine ⟨rfl, fun hkept => (frameKept_iff fun _ => by decide).mp hkept ?_⟩
  exact ⟨rfl, by decide, by decide, rfl, by decide, rfl⟩

end Frame

end Spfs
