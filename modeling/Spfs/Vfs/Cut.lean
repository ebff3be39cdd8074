-- SUMMARY: A power cut before or during the call that stores an inode leaves the image of mkfs or no file system.
import Spfs.Vfs.Check

/-!
# Power cuts

The blocks that were changed come to the device one by one, in any order. What decides is the
super block: up to its block coming to the device, nothing of what was stored is found
there, and afterwards there is no file system. The block of the free list is never changed.
-/

namespace Spfs

open EStateM (Within run_bind_of_ok run_bind_of_error)

/-! ## The block of the free list -/

/-- The block of the free list is what it was, and free blocks and data lie behind it. -/
structure SparesList (w₀ w : World) : Prop where
  block : w.disk 1 = w₀.disk 1
  free : ∀ node ∈ w.sbi.freeList.root, 2 ≤ node.start
  cache : ∀ p i, w.inodes p = some i → i.Idle

section Calls

variable {w₀ w w' : World} {n p : ℕ} {i : SpfsInode}

theorem Unstored.sparesList (h : Unstored w₀ n w) : SparesList w₀ w :=
  ⟨h.disk 1 (by decide), h.free, fun p i hp => (h.cache p i hp).2⟩

theorem SparesList.of_onlyLogs (h : SparesList w₀ w) (hlogs : OnlyLogs w w') : SparesList w₀ w' where
  block := by rw [hlogs.disk]; exact h.block
  free := by rw [hlogs.sbi]; exact h.free
  cache := by rw [hlogs.inodes]; exact h.cache

theorem SparesList.setInode (h : SparesList w₀ w) (hidle : i.Idle) : SparesList w₀ (w.setInode p i) := by
  refine { h with cache := fun q j hq => ?_ }
  rw [World.setInode_inodes] at hq
  by_cases hqp : q = p
  · subst hqp
    rw [Function.update_self] at hq
    obtain rfl := Option.some.inj hq
    exact hidle
  · rw [Function.update_of_ne hqp] at hq
    exact h.cache q j hq

theorem sparesList_rooted {env : Env} {in_ : SpfsInode} (h : SparesList w₀ (recorded env in_ w)) (b : Block) :
    SparesList w₀ (rooted env in_ w b) := by
  have hlist : spfsFreeAlloc (recorded env in_ w).sbi.freeList w.sbi.tree.blocks = (rootPage w, listAfterRoot w) := rfl
  refine ⟨?_, (spfsFreeAlloc_le h.free hlist).2, h.cache⟩
  rw [rooted, World.setBlock_disk, Function.update_of_ne (by decide)]
  exact h.block

variable (env : Env)

theorem spfsBtreeInsert_sparesList (h : Unstored w₀ n w) (in_ : SpfsInode) :
    SparesList w₀ ((spfsBtreeInsert env in_).run w).final := by
  rcases spfsBtreeInsert_roots env h in_ with ⟨hunstored, -⟩ | ⟨b, -, -, hrecorded, hlogs⟩
  · exact hunstored.sparesList
  · exact (sparesList_rooted hrecorded.sparesList b).of_onlyLogs hlogs

theorem spfsGenericCreate_sparesList (h : Unstored w₀ n w) (hn : n + 1 < 2 ^ 64) (parent : ℕ) (dentry : Dentry)
    (mode : ℕ) : SparesList w₀ ((spfsGenericCreate env parent dentry mode).run w).final :=
  spfsGenericCreate_ends env (fun _ => Unstored.sparesList) (fun _ i h₁ => spfsBtreeInsert_sparesList env h₁ i) h hn
    parent dentry mode

theorem incNlink_sparesList (p : ℕ) : Within (EStateM.Keeps (SparesList w₀)) (incNlink p) := by
  intro w h
  cases hp : w.inodes p with
  | none =>
    rw [incNlink, run_bind_of_error (by rw [run_getInode, hp])]
    exact h
  | some i =>
    have hput : Within (EStateM.Keeps (SparesList w₀)) (putInode p { i with iNlink := (i.iNlink + 1) % 2 ^ 32 }) := by
      intro w' h'
      exact h'.setInode ((h.cache p i hp).of_same rfl rfl rfl)
    rw [incNlink, run_bind_of_ok (run_getInode_of hp)]
    refine Within.ite (fun _ => ?_) (fun _ => hput) w h
    exact (within_followSb i).bind fun _ => hput

/-- A new block of a directory lies behind that of the free list. -/
theorem spfsAddChild_block (h : SparesList w₀ w) (p child : ℕ) :
    ((spfsAddChild env p child).run w).final.disk 1 = w₀.disk 1 := by
  cases hp : w.inodes p with
  | none =>
    rw [spfsAddChild, run_bind_of_error (by rw [mutexLock, run_bind_of_error (by rw [run_getInode, hp])])]
    exact h.block
  | some i =>
    cases hlock : i.lock with
    | true =>
      rw [spfsAddChild, run_bind_of_error (run_mutexLock_held hp hlock)]
      exact h.block
    | false =>
      have hcall := spfsAddChild_call env child hp hlock
      have hplace : placeIn env w i = endPlace env w.sbi.freeList (w.time + 1) := by
        rw [placeIn, (h.cache p i hp hlock).start]
        cases env.fuel <;> rfl
      rw [hplace, endPlace] at hcall
      generalize (spfsAddChild env p child).run w = r at hcall ⊢
      split at hcall
      · cases hcall with
        | @fresh s w' hne hs hstep _ =>
          have hbehind : 2 ≤ (spfsFreeAlloc w.sbi.freeList 1).1 := (spfsFreeAlloc_le h.free rfl).1.resolve_left hne
          show w'.disk 1 = w₀.disk 1
          rw [hstep.disk, Function.update_of_ne (by omega)]
          exact h.block
      · cases hcall with
        | @noBlock w' hstep _ =>
          show w'.disk 1 = w₀.disk 1
          rw [hstep.disk]
          exact h.block

theorem createOp_block (h : Unstored w₀ n w) (hn : n + 1 < 2 ^ 64) (op : CreateOp) (parent : ℕ) (dentry : Dentry)
    (mode : ℕ) : ((op.run env parent dentry mode).run w).final.disk 1 = w₀.disk 1 := by
  have hkept (w₁ : World) (h₁ : Unstored w₀ n w₁) : w₁.disk 1 = w₀.disk 1 := h₁.disk 1 (by decide)
  refine (within_bugOn _).keeps_bind h hkept fun _ w₁ _ h₁ => ?_
  refine (within_getInode parent).keeps_bind h₁ hkept fun dir w₂ _ h₂ => ?_
  refine (within_bugOn _).keeps_bind h₂ hkept fun _ w₃ _ h₃ => ?_
  have hgeneric := spfsGenericCreate_sparesList env h₃ hn parent dentry mode
  cases hrun : (spfsGenericCreate env parent dentry mode).run w₃ with
  | error f w₄ =>
    rw [hrun] at hgeneric
    rw [run_bind_of_error hrun]
    exact hgeneric.block
  | ok r w₄ =>
    rw [hrun] at hgeneric
    rw [run_bind_of_ok hrun]
    dsimp only
    split
    · exact hgeneric.block
    split
    · exact hgeneric.block
    next inode _ =>
    have hlink : Within (EStateM.Keeps (SparesList w₀)) (op.link parent) := by
      cases op with
      | create => exact Within.pure _
      | mkdir => exact incNlink_sparesList parent
    refine hlink.keeps_bind hgeneric (fun _ h => h.block) fun _ w₅ _ h₅ => ?_
    refine (within_getInode inode).keeps_bind h₅ (fun _ h => h.block) fun child w₆ _ h₆ => ?_
    have hadd := spfsAddChild_block env h₆ parent child.iIno
    cases hrun₆ : (spfsAddChild env parent child.iIno).run w₆ with
    | error f w₇ =>
      rw [hrun₆] at hadd
      rw [run_bind_of_error hrun₆]
      exact hadd
    | ok res w₇ =>
      rw [hrun₆] at hadd
      rw [run_bind_of_ok hrun₆]
      exact hadd

/-- Not even the call that stores an inode changes the block of the free list. -/
theorem VfsCall.block (h : Unstored w₀ n w) (hn : n + 1 < 2 ^ 64) (call : VfsCall) :
    ((call.run env).run w).final.disk 1 = w₀.disk 1 := by
  cases call with
  | create op parent dentry mode =>
    rw [VfsCall.final_create]
    exact createOp_block env h hn op parent dentry mode
  | lookup | iterate | read | write | writeInode | iput | freeInode =>
    exact (VfsCall.within_unstored env (by simp) w h).disk 1 (by decide)

end Calls

/-! ## Cutting a session off -/

/-- A power cut in a run: each block of the device holds what it held after some of the calls. -/
def World.cut (w : World) (calls : List (Env × VfsCall)) (done : ℕ → ℕ) : World :=
  { w with disk := fun s => (runCalls w (calls.take (done s))).disk s }

theorem World.cut_disk (w : World) (calls : List (Env × VfsCall)) (done : ℕ → ℕ) (s : ℕ) :
    (w.cut calls done).disk s = (runCalls w (calls.take (done s))).disk s := rfl

section Session

variable {w w' : World} {n : ℕ}

/-- As long as the tree has no root, nothing was stored by any of the calls. -/
theorem unstored_take {calls : List (Env × VfsCall)} (h : Unstored w' n w) (hcalls : n + calls.length ≤ 2 ^ 32)
    (hstart : (runCalls w calls).sbi.tree.start = 0) (k : ℕ) : Unstored w' (n + k) (runCalls w (calls.take k)) := by
  have hle : (calls.take k).length ≤ calls.length := List.length_take_le' k calls
  have hfew : (calls.take k).length ≤ k := List.length_take_le k calls
  rcases runCalls_unstored (calls.take k) h (by omega) with ⟨hunstored, -⟩ | hlost
  · exact hunstored.mono (by omega)
  · have hsplit : runCalls w calls = runCalls (runCalls w (calls.take k)) (calls.drop k) := by
      rw [runCalls, runCalls, runCalls, ← List.foldl_append, List.take_append_drop]
    have hlater := (runCalls_lost hlost (calls.drop k)).start
    rw [← hsplit] at hlater
    exact absurd hstart hlater

/-- Up to the call that stores the first inode, block 0 is the super block or the root, and block 1
is as it was. -/
theorem cut_block {calls : List (Env × VfsCall)} (last : Env × VfsCall) (h : Unstored w n w)
    (hcalls : n + calls.length < 2 ^ 32) (hstart : (runCalls w calls).sbi.tree.start = 0) (done : ℕ → ℕ) :
    (w.cut (calls ++ [last]) done).disk 1 = w.disk 1 ∧
      ((w.cut (calls ++ [last]) done).disk 0 = w.disk 0 ∨
        Lost (runCalls w (calls ++ [last])) ∧
          (w.cut (calls ++ [last]) done).disk 0 = (runCalls w (calls ++ [last])).disk 0) := by
  have hbefore : Unstored w (n + calls.length) (runCalls w calls) := by
    have hall := unstored_take h hcalls.le hstart calls.length
    rwa [List.take_length] at hall
  have hcut (s : ℕ) : (w.cut (calls ++ [last]) done).disk s = (runCalls w (calls.take (done s))).disk s ∨
      (w.cut (calls ++ [last]) done).disk s = (runCalls w (calls ++ [last])).disk s := by
    rcases Nat.lt_or_ge calls.length (done s) with hlate | hearly
    · right
      rw [World.cut_disk, List.take_of_length_le (by simp; omega)]
    · left
      rw [World.cut_disk, List.take_append_of_le_length hearly]
  have hearlier (s : ℕ) (hs : s < 2) : (runCalls w (calls.take (done s))).disk s = w.disk s :=
    (unstored_take h hcalls.le hstart (done s)).disk s hs
  refine ⟨?_, ?_⟩
  · rcases hcut 1 with hone | hone
    · rw [hone, hearlier 1 (by decide)]
    · rw [hone, runCalls_concat]
      exact VfsCall.block last.1 hbefore (by omega) last.2
  · rcases hcut 0 with hzero | hzero
    · exact .inl (hzero.trans (hearlier 0 (by decide)))
    · have hlast := last.2.unstored last.1 hbefore hcalls
      rw [← runCalls_concat] at hlast
      rcases hlast with hunstored | hlost
      · exact .inl (hzero.trans (hunstored.disk 0 (by decide)))
      · exact .inr ⟨hlost, hzero⟩

variable {env : Env} {fd fd' : OpenFile}

end Session

end Spfs
