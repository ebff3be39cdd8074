-- SUMMARY: Which calls of spfs_read, spfs_write, spfs_add_child and spfs_for_all_children give back their lock and every buffer.
import Spfs.Dir.AddChild
import Spfs.Dir.Iterate
import Spfs.File.ReadPath
import Spfs.File.WriteFailure

/-!
# Exits

A call that returns should have given back the lock of its inode and each buffer that it
read. The file operations return with the lock from most of their failures; the directory
operations unlock on every exit, but they keep the buffer of a block whose header is none.
-/

namespace Spfs

open EStateM (Returns Within)

/-! ## Lookups -/

section Lookups

variable (env : Env) (p : ℕ)

/-- What is done to objects of the cache does not show in the log. -/
theorem returns_modifyInode (f : SpfsInode → SpfsInode) : Returns Balanced (modifyInode p f) := by
  intro w _ w' hrun
  cases hp : w.inodes p with
  | none =>
    rw [modifyInode, EStateM.run_bind_of_error (by rw [run_getInode, hp])] at hrun
    cases hrun
  | some i =>
    rw [run_modifyInode_of hp] at hrun
    cases hrun
    exact Takes.of_log_eq rfl

theorem returns_iput : Returns Balanced (iput p) := by
  refine (within_getInode p).returns.bind fun i => Returns.ite (fun _ => ?_) fun _ => ?_
  · intro w _ w' hrun
    cases hrun
    refine Takes.of_log_eq ?_
    show (w.evict p).log = w.log
    unfold World.evict
    split <;> rfl
  · intro w _ w' hrun
    cases hrun
    exact Takes.of_log_eq rfl

theorem returns_igetFailed : Returns Balanced (igetFailed env p) := by
  refine Within.get.returns.bind fun w => (returns_modifyInode p _).bind fun _ => ?_
  exact (returns_modifyInode p _).bind fun _ => returns_iput p

theorem returns_igetLocked (ino : ℕ) : Returns Balanced (igetLocked env ino) := by
  intro w r w' hrun
  have higet (w₁ : World) (hlog : w₁.log = w.log) : Balanced w (w₁.addEvent (.iget ino)) :=
    (Takes.event (fun _ => rfl) w₁).of_log hlog.symm rfl
  cases hp : w.inodes ino with
  | none =>
    rw [run_igetLocked_none ino hp] at hrun
    split at hrun
    · cases hrun
      exact higet w rfl
    · cases hrun
      exact (higet w rfl).of_log rfl rfl
  | some i =>
    rw [igetLocked, EStateM.run_bind_of_ok (EStateM.run_get w), hp] at hrun
    dsimp only at hrun
    split at hrun
    · cases hrun
    split at hrun
    · cases hrun
    cases hrun
    exact higet (w.setInode ino { i with iCount := i.iCount + 1 }) rfl

theorem returns_spfsSetupInodeFp : Returns Balanced (spfsSetupInodeFp p) := by
  intro w _ w' hrun
  cases hp : w.inodes p with
  | none =>
    rw [spfsSetupInodeFp, EStateM.run_bind_of_error (by rw [run_getInode, hp])] at hrun
    cases hrun
  | some i =>
    obtain ⟨nlink, rfl⟩ := spfsSetupInodeFp_ok hp hrun
    exact Takes.of_log_eq rfl

/-- A lookup that returns has released the blocks that it read. -/
theorem returns_spfsInodeById (id : ℕ) : Returns Balanced (spfsInodeById env id) := by
  unfold spfsInodeById
  refine (returns_igetLocked env id).bind fun obj => ?_
  split
  · exact Returns.pure _
  · next q =>
    refine (within_getInode q).returns.bind fun result => Returns.ite (fun _ => Returns.pure _) fun _ => ?_
    have hlookup : Returns Balanced (spfsBtreeLookup env id result) := by
      intro w r w' hrun
      obtain ⟨_, _, _, _, hbal⟩ := spfsBtreeModify_answers hrun
      exact hbal
    have hput (i : SpfsInode) : Returns Balanced (putInode q i) := by
      intro w _ w' hrun
      cases hrun
      exact Takes.of_log_eq rfl
    refine hlookup.bind fun r => Returns.ite (fun _ => ?_) fun _ => ?_
    · exact (returns_igetFailed env q).bind fun _ => Returns.pure _
    · refine (hput _).bind fun _ => (returns_spfsSetupInodeFp q).bind fun _ => ?_
      exact (returns_modifyInode q _).bind fun _ => Returns.pure _

end Lookups

/-! ## Traversals -/

section Traversals

variable {γ : Type} {env : Env} {f : ForAllCb γ} {p : ℕ} {w w' : World}

/-- The lock of an object in the cache stays as it is. -/
def KeepsLock (p : ℕ) (w w' : World) : Prop := ∀ b, lockOf w p = some b → lockOf w' p = some b

instance (p : ℕ) : IsPreorder World (KeepsLock p) where
  refl _ _ h := h
  trans _ _ _ h h' b hb := h' b (h b hb)

instance (p : ℕ) : IgnoresLog (KeepsLock p) where
  addEvent _ _ _ h := h

theorem KeepsDir.keepsLock (h : KeepsDir p w w') : KeepsLock p w w' := by
  intro b hb
  rw [lockOf, Option.map_eq_some_iff] at hb
  obtain ⟨i, hi, rfl⟩ := hb
  obtain ⟨n, hn⟩ := h i hi
  rw [lockOf, hn]
  rfl

/-- A callback that gives back what it takes. -/
def CallbackReleases (p : ℕ) (f : ForAllCb γ) : Prop := ∀ closure child, Returns (Released p) (f closure child)

theorem spfsIterateCb_releases (p : ℕ) : CallbackReleases p spfsIterateCb :=
  fun closure child => (within_spfsIterateCb closure child).returns

/-- The visits of some ids give back what they take. -/
theorem visitAll_releases (hf : CallbackReleases p f) {ids : List ℕ} {closure : γ} {r : γ × Bool}
    (hrun : (visitAll env f ids closure).run w = .ok r w') : KeepsLock p w w' ∧ Balanced w w' := by
  induction ids generalizing closure w with
  | nil =>
    cases hrun
    exact ⟨refl_of (KeepsLock p) w', refl_of Balanced w'⟩
  | cons id ids ih =>
    rw [visitAll] at hrun
    obtain ⟨r₁, w₁, hlookup, hrun₁⟩ := EStateM.run_bind_eq_ok.mp hrun
    have hlock₁ : KeepsLock p w w₁ := (spfsInodeById_keepsDir hlookup).keepsLock
    have hbal₁ : Balanced w w₁ := returns_spfsInodeById env id _ _ _ hlookup
    cases r₁ with
    | error e =>
      obtain ⟨hlock, hbal⟩ := ih hrun₁
      exact ⟨trans_of (KeepsLock p) hlock₁ hlock, hbal₁.trans hbal⟩
    | ok child =>
      obtain ⟨⟨closure', more⟩, w₂, hcall, hrun₂⟩ := EStateM.run_bind_eq_ok.mp hrun₁
      have hreleased := hf closure child _ _ _ hcall
      have hlock₂ : KeepsLock p w w₂ :=
        trans_of (KeepsLock p) hlock₁ fun b hb => hreleased.lock.trans hb
      have hbal₂ : Balanced w w₂ := hbal₁.trans hreleased.buffers
      cases more with
      | false =>
        cases hrun₂
        exact ⟨hlock₂, hbal₂⟩
      | true =>
        obtain ⟨hlock, hbal⟩ := ih hrun₂
        exact ⟨trans_of (KeepsLock p) hlock₂ hlock, hbal₂.trans hbal⟩

/-- A traversal from a sector on comes to no block that starts without a header, and to no
block with fewer ids than its header counts, unless the callback ends it there. -/
inductive Traverses (env : Env) (f : ForAllCb γ) : World → ℕ → γ → Prop
  | done {w : World} {closure : γ} : Traverses env f w 0 closure
  | unread {w : World} {s : ℕ} {closure : γ} (hs : s ≠ 0) (hio : env.ioOk w.time s = false) :
      Traverses env f w s closure
  | stopped {w w' : World} {s : ℕ} {closure closure' : γ} {header : DirBlock} (hs : s ≠ 0)
      (hio : env.ioOk w.time s = true) (hdir : DirAt (w.disk s) header)
      (hvisit : (visitAll env f ((entriesFrom w.bSize (w.disk s) 12).take header.children) closure).run
        (w.addEvent (.bread s true)) = .ok (closure', false) w') : Traverses env f w s closure
  | next {w w' : World} {s : ℕ} {closure closure' : γ} {header : DirBlock} (hs : s ≠ 0)
      (hio : env.ioOk w.time s = true) (hdir : DirAt (w.disk s) header)
      (hcount : header.children ≤ (entriesFrom w.bSize (w.disk s) 12).length)
      (hvisit : (visitAll env f ((entriesFrom w.bSize (w.disk s) 12).take header.children) closure).run
        (w.addEvent (.bread s true)) = .ok (closure', true) w')
      (hrest : Traverses env f (w'.addEvent (.brelse s)) header.next closure') :
      Traverses env f w s closure

/-- At a block that can be read and has a header, a traversal goes on as the visits of its
ids say. -/
theorem Traverses.block_iff {s : ℕ} {closure closure' : γ} {header : DirBlock} {more : Bool} (hs : s ≠ 0)
    (hio : env.ioOk w.time s = true) (hdir : DirAt (w.disk s) header)
    (hvisit : (visitAll env f ((entriesFrom w.bSize (w.disk s) 12).take header.children) closure).run
      (w.addEvent (.bread s true)) = .ok (closure', more) w') :
    Traverses env f w s closure ↔ more = false ∨
      header.children ≤ (entriesFrom w.bSize (w.disk s) 12).length ∧
        Traverses env f (w'.addEvent (.brelse s)) header.next closure' := by
  constructor
  · intro h
    cases h with
    | done => exact absurd rfl hs
    | unread _ hio' => simp [hio] at hio'
    | stopped _ _ hdir' hvisit' =>
      obtain rfl := hdir.eq.symm.trans hdir'.eq
      rw [hvisit] at hvisit'
      cases hvisit'
      exact .inl rfl
    | next _ _ hdir' hcount hvisit' hrest =>
      obtain rfl := hdir.eq.symm.trans hdir'.eq
      rw [hvisit] at hvisit'
      cases hvisit'
      exact .inr ⟨hcount, hrest⟩
  · intro h
    cases more with
    | false => exact .stopped hs hio hdir hvisit
    | true =>
      obtain ⟨hcount, hrest⟩ := h.resolve_left (by decide)
      exact .next hs hio hdir hcount hvisit hrest

/-- The loop over the blocks that returns has given back every buffer, or it has kept the one
of a block that it could not traverse. -/
theorem spfsForAllChildrenLit_exits (hstore : KeepsStore f) (hf : CallbackReleases p f) {fuel start : ℕ}
    {closure : γ} {r : ℤ × γ} (hrun : (spfsForAllChildrenLit env f fuel start closure).run w = .ok r w') :
    KeepsLock p w w' ∧ ((Traverses env f w start closure ∧ Balanced w w') ∨
      (¬ Traverses env f w start closure ∧ ∃ s, Takes (oneBuffer s) w w')) := by
  induction fuel generalizing start closure w with
  | zero =>
    cases start with
    | zero =>
      cases hrun
      exact ⟨refl_of (KeepsLock p) w', .inl ⟨.done, refl_of Balanced w'⟩⟩
    | succ start => cases hrun
  | succ fuel ih =>
    by_cases hs : start = 0
    · subst hs
      cases hrun
      exact ⟨refl_of (KeepsLock p) w', .inl ⟨.done, refl_of Balanced w'⟩⟩
    by_cases hio : env.ioOk w.time start = true
    case neg =>
      have hio' := Bool.eq_false_iff.mpr hio
      rw [spfsForAllChildrenLit, EStateM.run_check_of_false (run_sbBread_failed hio')] at hrun
      · cases hrun
        exact ⟨IgnoresLog.addEvent w _, .inl ⟨.unread hs hio', Takes.event (fun _ => rfl) w⟩⟩
      · exact hs
    by_cases hmagic : dirMagic (w.disk start) = spookyFsDirBlockMagic
    case neg =>
      set w₁ := w.addEvent (.bread start true) with hw₁
      have hread : (sbBread env start).run w = .ok true w₁ := run_sbBread_ok hio
      have hparse : (parseBuf start 0 spfsParseDirBlock).run w₁ = .ok (.error (-EINVAL), 12) w₁ := by
        rw [run_parseBuf, run_spfsParseDirBlock w₁.le_bSize, hw₁, World.addEvent_disk, if_neg hmagic]
      rw [spfsForAllChildrenLit, EStateM.run_check_of_true hread, EStateM.run_bind_of_ok hparse, hw₁] at hrun
      · cases hrun
        refine ⟨IgnoresLog.addEvent w _, .inr ⟨fun h => ?_, start, Takes.bread w start⟩⟩
        cases h with
        | done => exact hs rfl
        | unread _ hio' => exact Bool.eq_false_iff.mp hio' hio
        | stopped _ _ hdir => exact hmagic hdir.magic
        | next _ _ hdir => exact hmagic hdir.magic
      · exact hs
    have hdir : DirAt (w.disk start) (parsedDir (w.disk start)) := ⟨hmagic, rfl⟩
    generalize parsedDir (w.disk start) = header at hdir
    rw [spfsForAllChildrenLit_block hstore hs hio hdir] at hrun
    obtain ⟨⟨closure', more⟩, w₁, hvisit, hrun₁⟩ := EStateM.run_bind_eq_ok.mp hrun
    obtain ⟨hlock, hbal⟩ := visitAll_releases hf hvisit
    have hlock₁ : KeepsLock p w w₁ := trans_of (KeepsLock p) (IgnoresLog.addEvent w _) hlock
    rw [Traverses.block_iff hs hio hdir hvisit]
    cases more with
    | false =>
      cases hrun₁
      exact ⟨trans_of (KeepsLock p) hlock₁ (IgnoresLog.addEvent w₁ _),
        .inl ⟨.inl rfl, hbal.of_bread_brelse⟩⟩
    | true =>
      rw [if_neg (by simp)] at hrun₁
      by_cases hcount : header.children ≤ (entriesFrom w.bSize (w.disk start) 12).length
      · rw [if_pos hcount, EStateM.run_bind_of_ok (run_brelse _ _)] at hrun₁
        obtain ⟨hlock', hexit⟩ := ih hrun₁
        refine ⟨trans_of (KeepsLock p) (trans_of (KeepsLock p) hlock₁ (IgnoresLog.addEvent w₁ _)) hlock', ?_⟩
        rcases hexit with ⟨hrest, hbal'⟩ | ⟨hnot, s, htakes⟩
        · exact .inl ⟨.inr ⟨hcount, hrest⟩, hbal.of_bread_brelse.trans hbal'⟩
        · refine .inr ⟨?_, s, ?_⟩
          · rintro (h | ⟨-, hrest⟩)
            · cases h
            · exact hnot hrest
          · have hsum := Takes.trans hbal.of_bread_brelse htakes
            rwa [zero_add] at hsum
      · rw [if_neg hcount] at hrun₁
        cases hrun₁
        refine ⟨hlock₁, .inr ⟨?_, start, ?_⟩⟩
        · rintro (h | ⟨hle, -⟩)
          · cases h
          · exact hcount hle
        · have hsum := (Takes.bread w start).trans hbal
          rwa [add_zero] at hsum

/-- A traversal that returns gives back every buffer when it comes to no bad block. -/
theorem spfsForAllChildren_releases {i : SpfsInode} {closure : γ} {r : ℤ × γ} (hstore : KeepsStore f)
    (hf : CallbackReleases p f) (hp : w.inodes p = some i)
    (hrun : (spfsForAllChildren env f p closure).run w = .ok r w') :
    Released p w w' ↔ sIsDir i.iMode = false ∨ Traverses env f (lockedWorld w p i) i.start closure := by
  rw [spfsForAllChildren, EStateM.run_bind_of_ok (run_getInode_of hp)] at hrun
  obtain ⟨sbi, w₁, hsuper, hrun₁⟩ := EStateM.run_bind_eq_ok.mp hrun
  obtain rfl := superOf_same hsuper
  cases hmode : sIsDir i.iMode with
  | false =>
    rw [if_pos (by rw [hmode]; rfl)] at hrun₁
    cases hrun₁
    exact iff_of_true (refl_of (Released p) w') (.inl rfl)
  | true =>
    rw [if_neg (by rw [hmode]; decide)] at hrun₁
    cases hlock : i.lock with
    | true =>
      rw [EStateM.run_bind_of_error (run_mutexLock_held hp hlock)] at hrun₁
      cases hrun₁
    | false =>
      have hlocked : (mutexLock p).run w₁ = .ok () (lockedWorld w₁ p i) := run_mutexLock_of hp hlock
      rw [EStateM.run_bind_of_ok hlocked] at hrun₁
      set w₂ := lockedWorld w₁ p i
      have hp₂ : lockOf w₂ p = some true := by
        have hobj : w₂.inodes p = some { i with lock := true } := Function.update_self _ _ _
        rw [lockOf, hobj]
        rfl
      obtain ⟨r', w₃, hlit, hrun₃⟩ := EStateM.run_bind_eq_ok.mp hrun₁
      obtain ⟨hkeeps, hexit⟩ := spfsForAllChildrenLit_exits (p := p) hstore hf hlit
      obtain ⟨j, hj, -⟩ := Option.map_eq_some_iff.mp (hkeeps true hp₂)
      rw [EStateM.run_bind_of_ok (run_mutexUnlock_of hj)] at hrun₃
      cases hrun₃
      rcases hexit with ⟨htraverses, hbal⟩ | ⟨hnot, s, htakes⟩
      · have hbal' : Balanced (w₁.addEvent (.lock p)) w₃ := hbal.of_log rfl rfl
        exact iff_of_true (.of_unlock hp hlock hbal' rfl (Function.update_self _ _ _) rfl)
          (.inr htraverses)
      · refine iff_of_false (fun hreleased => ?_) (by simpa using hnot)
        have htaken : Balanced w₁ w₂ := (Takes.event (e := .lock p) (fun _ => rfl) w₁).of_log rfl rfl
        have hgiven : Balanced w₃ ((w₃.setInode p { j with lock := false }).addEvent (.unlock p)) :=
          (Takes.event (e := .unlock p) (fun _ => rfl) w₃).of_log rfl rfl
        have hsum := (Takes.trans htaken htakes).trans hgiven
        rw [zero_add, add_zero] at hsum
        exact hsum.not_balanced hreleased.buffers

end Traversals

/-! ## Adding a child -/

/-- An addition that returns gives back every buffer unless it comes to a block of the chain
that starts without a header. -/
theorem spfsAddChild_releases {env : Env} {p child : ℕ} {i : SpfsInode} {w w' : World} {r : ℤ}
    (hp : w.inodes p = some i) (hrun : (spfsAddChild env p child).run w = .ok r w') :
    Released p w w' ↔ ∀ s, placeIn env w i ≠ .garbled s := by
  cases hlock : i.lock with
  | true =>
    rw [spfsAddChild, EStateM.run_bind_of_error (run_mutexLock_held hp hlock)] at hrun
    cases hrun
  | false =>
    have hcall := spfsAddChild_call env child hp hlock
    rw [hrun] at hcall
    generalize hplace : placeIn env w i = place at hcall
    have hunlocked {j : SpfsInode} {disk : ℕ → Block} {fl : FreeList}
        (hstep : DirStep p j disk fl w w') (hj : j.lock = false) : lockOf w' p = lockOf w p := by
      rw [lockOf, lockOf, hstep.inodes, hp, Function.update_self, Option.map_some, Option.map_some,
        hj, hlock]
    cases hcall with
    | slot _ _ _ _ hstep hbal => exact iff_of_true ⟨hunlocked hstep hlock, hbal⟩ fun _ h => by cases h
    | fresh _ _ hstep hbal => exact iff_of_true ⟨hunlocked hstep hlock, hbal⟩ fun _ h => by cases h
    | unread hstep hbal => exact iff_of_true ⟨hunlocked hstep hlock, hbal⟩ fun _ h => by cases h
    | noBlock hstep hbal => exact iff_of_true ⟨hunlocked hstep hlock, hbal⟩ fun _ h => by cases h
    | @garbled s _ hstep htakes =>
      exact iff_of_false (fun h => htakes.not_balanced h.buffers) fun h => h s rfl

/-! ## All four calls -/

/-- When each of the calls gives back its lock and every buffer, among those that return. -/
theorem calls_release_iff {p : ℕ} {i : SpfsInode} {w : World} (env : Env)
    (hsize : w.sbi.blockSize = w.bSize) (hp : w.inodes p = some i) :
    (∀ inLen ppos r w', (spfsRead env p inLen ppos).run w = .ok r w' →
      (Released p w w' ↔ inLen = 0 ∨ sIsReg i.iMode = false ∨
        ReadsThrough env w.bSize w.disk (w.time + 1) i.start inLen ppos)) ∧
    (∀ buf ppos r w', (spfsWrite env p buf ppos).run w = .ok r w' →
      (Released p w w' ↔ (buf = [] ∨ sIsReg i.iMode = false ∨ i.lock = true) ∨
        ∃ x, GetsRoom env (lockedWorld w p i) { i with lock := true } buf (writePos i ppos) (.ready x) ∧
          WalksPast env w.bSize x)) ∧
    (∀ child r w', (spfsAddChild env p child).run w = .ok r w' →
      (Released p w w' ↔ ∀ s, placeIn env w i ≠ .garbled s)) ∧
    ∀ (γ : Type) (f : ForAllCb γ) closure r w', KeepsStore f → CallbackReleases p f →
      (spfsForAllChildren env f p closure).run w = .ok r w' →
        (Released p w w' ↔ sIsDir i.iMode = false ∨
          Traverses env f (lockedWorld w p i) i.start closure) := by
  refine ⟨fun _ _ _ _ hrun => ?_, fun _ _ r _ hrun => ?_, fun _ _ _ hrun => ?_,
    fun _ _ _ _ _ hstore hf hrun => ?_⟩
  · exact spfsRead_releases hp hrun
  · obtain ⟨res, ppos'⟩ := r
    exact spfsWrite_releases hsize hp hrun
  · exact spfsAddChild_releases hp hrun
  · exact spfsForAllChildren_releases hstore hf hp hrun

theorem calls_release_iff_oneFile :
    (∀ inLen ppos r w', (spfsRead (.calm 9) 1 inLen ppos).run oneFileWorld = .ok r w' →
      (Released 1 oneFileWorld w' ↔ inLen = 0 ∨ sIsReg (plainFile 1).iMode = false ∨
        ReadsThrough (.calm 9) oneFileWorld.bSize oneFileWorld.disk (oneFileWorld.time + 1)
          (plainFile 1).start inLen ppos)) ∧
    (∀ buf ppos r w', (spfsWrite (.calm 9) 1 buf ppos).run oneFileWorld = .ok r w' →
      (Released 1 oneFileWorld w' ↔
        (buf = [] ∨ sIsReg (plainFile 1).iMode = false ∨ (plainFile 1).lock = true) ∨
          ∃ x, GetsRoom (.calm 9) (lockedWorld oneFileWorld 1 (plainFile 1))
            { plainFile 1 with lock := true } buf (writePos (plainFile 1) ppos) (.ready x) ∧
            WalksPast (.calm 9) oneFileWorld.bSize x)) ∧
    (∀ child r w', (spfsAddChild (.calm 9) 1 child).run oneFileWorld = .ok r w' →
      (Released 1 oneFileWorld w' ↔ ∀ s, placeIn (.calm 9) oneFileWorld (plainFile 1) ≠ .garbled s)) ∧
    ∀ (γ : Type) (f : ForAllCb γ) closure r w', KeepsStore f → CallbackReleases 1 f →
      (spfsForAllChildren (.calm 9) f 1 closure).run oneFileWorld = .ok r w' →
        (Released 1 oneFileWorld w' ↔ sIsDir (plainFile 1).iMode = false ∨
          Traverses (.calm 9) f (lockedWorld oneFileWorld 1 (plainFile 1)) (plainFile 1).start closure) :=
  calls_release_iff (.calm 9) rfl rfl

/-- A write of one byte, every step of which succeeds, returns with the lock. -/
theorem not_released_oneByte : ∃ r w',
    (spfsWrite (.calm 9) 1 [65] 0).run oneFileWorld = .ok r w' ∧ ¬ Released 1 oneFileWorld w' := by
  obtain ⟨w', hrun, hheld⟩ := run_spfsWrite_oneByte
  exact ⟨_, w', hrun, hheld.not_released (i := plainFile 1) rfl rfl⟩

end Spfs
