-- SUMMARY: What calls that return have written is marked as dirty: writing the marked buffers back brings the device up to date.
import Mathlib.Data.Set.Insert
import Spfs.Btree.InsertSpec
import Spfs.File.Extent
import Spfs.Inode.WriteBack
import Spfs.Vfs

/-!
# What is written back

The blocks of the state are those of the buffer cache, and only a buffer that is marked as
dirty reaches the device. A function that writes to a buffer owes the mark for it until it
is made (`SavesBut`). All calls that return have made all the marks that they owe, but for
a write that fails to read a block of an extent when it has filled in another one.
-/

namespace Spfs

open EStateM (Within Returns Settles)

/-- Each block that changed since, but for those of `A`, was marked as dirty, or there was a
block that could not be read. -/
def SavesBut (A : Set ℕ) (w w' : World) : Prop :=
  ∃ es, w'.log = es ++ w.log ∧
    ((∀ s, s ∉ A → w'.disk s ≠ w.disk s → Event.dirty s ∈ es) ∨ ∃ s, Event.bread s false ∈ es)

/-- All blocks that changed were marked. -/
abbrev Saves : World → World → Prop := SavesBut ∅

instance (A : Set ℕ) : Reading (SavesBut A) where
  refl _ := ⟨[], rfl, .inl fun _ _ h => absurd rfl h⟩
  trans := by
    rintro w w₁ w' ⟨es, hlog, hes⟩ ⟨es', hlog', hes'⟩
    refine ⟨es' ++ es, by rw [hlog', hlog, List.append_assoc], ?_⟩
    rcases hes with hes | ⟨s, hs⟩
    · rcases hes' with hes' | ⟨s, hs⟩
      · refine .inl fun s hA hs => List.mem_append.mpr ?_
        by_cases hsecond : w'.disk s = w₁.disk s
        · rw [hsecond] at hs
          exact .inr (hes s hA hs)
        · exact .inl (hes' s hA hsecond)
      · exact .inr ⟨s, List.mem_append_left _ hs⟩
    · exact .inr ⟨s, List.mem_append_right _ hs⟩
  addEvent _ e _ := ⟨[e], rfl, .inl fun _ _ h => absurd rfl h⟩
  cache _ _ _ := ⟨[], rfl, .inl fun _ _ h => absurd rfl h⟩

instance (s : ℕ) : WritesBlock s (SavesBut {s}) where
  setBlock _ _ := ⟨[], rfl, .inl fun _ hb h => absurd (Function.update_of_ne hb _ _) h⟩

section Calculus

variable {A : Set ℕ} {s : ℕ} {w w' : World}

theorem Saves.but (h : Saves w w') (A : Set ℕ) : SavesBut A w w' := by
  obtain ⟨es, hlog, hes⟩ := h
  exact ⟨es, hlog, hes.imp_left fun hes s _ => hes s (Set.notMem_empty s)⟩

/-- A block could not be read since. -/
def Unread (w w' : World) : Prop := ∃ es, w'.log = es ++ w.log ∧ ∃ s, Event.bread s false ∈ es

theorem Unread.saves (h : Unread w w') : Saves w w' := by
  obtain ⟨es, hlog, hes⟩ := h
  exact ⟨es, hlog, .inr hes⟩

theorem SavesBut.unread {w₁ : World} (h : SavesBut A w w₁) (hunread : Unread w₁ w') : Unread w w' := by
  obtain ⟨es, hlog, -⟩ := h
  obtain ⟨es', hlog', s, hs⟩ := hunread
  exact ⟨es' ++ es, by rw [hlog', hlog, List.append_assoc], s, List.mem_append_left _ hs⟩

/-- Nothing is owed for a block that has not changed. -/
theorem SavesBut.same (h : SavesBut {s} w w') (hs : w'.disk s = w.disk s) : Saves w w' := by
  obtain ⟨es, hlog, hes⟩ := h
  refine ⟨es, hlog, hes.imp_left fun hes b _ hb => hes b (fun hbs => ?_) hb⟩
  rw [Set.mem_singleton_iff.mp hbs] at hb
  exact hb hs

theorem saves_of_disk {es : List Event} (hlog : w'.log = es ++ w.log) (hdisk : w'.disk = w.disk) : Saves w w' :=
  ⟨es, hlog, .inl fun s _ hs => absurd (congrFun hdisk s) hs⟩

theorem saves_of_onlyLogs (h : OnlyLogs w w') : Saves w w' := by
  obtain ⟨es, rfl⟩ := h
  exact saves_of_disk rfl rfl

/-- The mark that was owed. -/
theorem settles_markBufferDirty (s : ℕ) : Settles (SavesBut {s}) Saves (markBufferDirty s) := by
  rintro w₀ w a w' ⟨es, hlog, hes⟩ hrun
  cases hrun
  refine ⟨.dirty s :: es, by rw [World.addEvent_log, hlog]; rfl, ?_⟩
  rcases hes with hes | ⟨b, hb⟩
  · refine .inl fun b _ hb => List.mem_cons.mpr ?_
    by_cases hbs : b = s
    · exact .inl (by rw [hbs])
    · exact .inr (hes b hbs hb)
  · exact .inr ⟨b, List.mem_cons_of_mem _ hb⟩

/-- What owes nothing may be done in between. -/
theorem saves_but {α : Type} {m : Kernel α} (h : Returns Saves m) (A : Set ℕ) : Returns (SavesBut A) m :=
  fun w a w' hrun => (h w a w' hrun).but A

theorem freeAlloc_saves (blocks : ℕ) : Within Saves (freeAlloc blocks) := by
  intro w
  rw [run_freeAlloc]
  by_cases hr : (spfsFreeAlloc w.sbi.freeList blocks).1 ≠ 0
  · simp only [if_pos hr]
    exact ⟨[.alloc _ _], rfl, .inl fun _ _ h => absurd rfl h⟩
  · simp only [if_neg hr]
    exact ⟨[], rfl, .inl fun _ _ h => absurd rfl h⟩

theorem setTreeStart_saves (A : Set ℕ) (s : ℕ) : Within (SavesBut A) (setTreeStart s) :=
  fun _ => ⟨[], rfl, .inl fun _ _ h => absurd rfl h⟩

end Calculus

section Calls

variable (env : Env)

/-! ## The tree -/

/-- The new root is marked in the buffer in which it was built. -/
theorem bnodeAllocRoot_saves (bubble : BtreeBubble) : Returns Saves (bnodeAllocRoot env bubble) := by
  unfold bnodeAllocRoot
  refine Within.get.returns.bind fun w => Within.get.returns.bind fun w' => ?_
  refine (freeAlloc_saves _).returns.bind fun root => Returns.ite (fun _ => .pure _) fun _ => ?_
  refine (sbBread_reading env _).returns.bind fun ok => Returns.ite (fun _ => .pure _) fun _ => ?_
  generalize w.sbi.tree.start = less
  have hback : Within (SavesBut {less}) (bnodeChildAddBack less less) :=
    (bnodeLength_reading _).bind fun length => (memWrite_service _ _ _).bind fun _ => Within.pure _
  refine Settles.returns (R := SavesBut {less}) ?_
  refine Settles.bind (bnodeMake_service less).returns fun _ => ?_
  refine Settles.bind (setTreeStart_saves _ root).returns fun _ => Settles.bind hback.returns fun res => ?_
  refine Settles.bind (within_bugOn _).returns fun _ => ?_
  refine Settles.bind (bnodeBinInsert_service less _ _ _).returns fun ires => ?_
  refine Settles.bind (within_bugOn _).returns fun _ => Settles.bind (bnodeLength_reading _).returns fun _ => ?_
  refine Settles.bind (within_bugOn _).returns fun _ => Settles.bind (bnodeChildLength_reading _).returns fun _ => ?_
  refine Settles.bind (within_bugOn _).returns fun _ => Settles.bind (bnodeIsEmpty_reading _).returns fun _ => ?_
  refine Settles.bind (within_bugOn _).returns fun _ => ?_
  exact (settles_markBufferDirty less).bind_returns fun _ => (brelse_reading _).returns.bind fun _ => .pure _

theorem btreeInsertNew_saves (in_ : SpfsInode) : Returns Saves (btreeInsertNew env in_) := by
  intro w r w' hrun
  by_cases hpage : recordPage w = 0
  · rw [run_btreeInsertNew_noPage hpage] at hrun
    cases hrun
    exact saves_of_disk (List.nil_append _).symm rfl
  by_cases hio : env.ioOk (w.time + 1) (recordPage w) = true
  case neg =>
    rw [run_btreeInsertNew_unread hpage (Bool.eq_false_iff.mpr hio)] at hrun
    cases hrun
    exact saves_of_disk rfl rfl
  rw [run_btreeInsertNew hpage hio] at hrun
  cases hrun
  refine ⟨_, rfl, .inl fun s _ hs => ?_⟩
  have hpage : s = recordPage w := by
    by_contra hne
    exact hs (Function.update_of_ne hne _ _)
  simp [hpage]

theorem spfsBtreeInsert_saves (in_ : SpfsInode) : Returns Saves (spfsBtreeInsert env in_) := by
  intro w res w' hrun
  by_cases hstart : w.sbi.tree.start = 0
  case neg =>
    have hlogs : OnlyLogs w w' := (spfsBtreeInsert_rootedFrame env in_).of_ok hrun hstart
    exact saves_of_onlyLogs hlogs
  rw [spfsBtreeInsert, EStateM.run_bind_of_ok (EStateM.run_get w), if_neg (not_not.mpr hstart)] at hrun
  have hroot (r : InsertResult) : Returns Saves (spfsBtreeInsert.insertRoot env r) := by
    unfold spfsBtreeInsert.insertRoot
    refine Returns.ite (fun _ => ?_) fun _ => .pure _
    exact (bnodeAllocRoot_saves env _).bind fun nres => (within_bugOn _).returns.bind fun _ => .pure _
  exact ((btreeInsertNew_saves env in_).bind hroot) w res w' hrun

/-- The record that was changed is marked at once. -/
theorem btreeVisitEntry_saves {γ : Type} (closure : γ) (cb : BtreeModifyCb γ) (offset : ℕ) :
    Within Saves (btreeVisitEntry env closure cb offset) := by
  unfold btreeVisitEntry
  refine Within.ite (fun _ => Within.pure _) fun _ => ?_
  refine (sbBread_reading env offset).bind fun ok => Within.ite (fun _ => Within.pure _) fun _ => ?_
  refine Within.get.bind fun w => (within_parseBuf offset 0 _).bind fun r => ?_
  rcases r with ⟨res | cur, pos⟩
  · exact (brelse_reading offset).bind fun _ => Within.pure _
  dsimp only
  split
  · exact Within.throw _
  · refine Within.ite (fun _ => ?_) fun _ => (brelse_reading offset).bind fun _ => Within.pure _
    intro w₁
    rw [EStateM.run_bind_of_ok (EStateM.run_get w₁), EStateM.run_bind_match, run_makeBuf,
      run_spfsInodeMake w₁.le_bSize]
    refine ⟨[.brelse offset, .dirty offset], rfl, .inl fun s _ hs => ?_⟩
    have hoffset : s = offset := by
      by_contra hne
      exact hs (Function.update_of_ne hne _ _)
    simp [hoffset]

theorem spfsBtreeModify_saves {γ : Type} (ino : ℕ) (closure : γ) (cb : BtreeModifyCb γ) :
    Within Saves (spfsBtreeModify env ino closure cb) :=
  spfsBtreeModify_reading env (btreeVisitEntry_saves env closure cb) ino

theorem spfsWriteInode_saves (p : ℕ) : Within Saves (spfsWriteInode env p) := by
  unfold spfsWriteInode
  refine (within_getInode p).bind fun i => (within_superOf i).bind fun _ => ?_
  exact (spfsBtreeModify_saves env _ _ _).bind fun r => Within.pure _

/-! ## Directories -/

theorem settles_addToBlock (s bhPos : ℕ) (block : DirBlock) (child : ℕ) :
    Settles (SavesBut {s}) Saves (addToBlock s bhPos block child) := by
  unfold addToBlock
  refine Settles.bind (spfsDirWriteChild_service s _ _ _).returns fun _ => ?_
  exact Settles.bind (makeBuf_service s 0 _).returns fun _ => settles_markBufferDirty s

/-- The mark for a new block is owed by the caller. -/
theorem spfsDirBlockAlloc_saves {w w' : World} {s pos : ℕ}
    (hrun : (spfsDirBlockAlloc env).run w = .ok (s, pos) w') : Saves w w' ∨ (s ≠ 0 ∧ SavesBut {s} w w') := by
  rw [spfsDirBlockAlloc] at hrun
  obtain ⟨result, w₁, halloc, hrun₁⟩ := EStateM.run_bind_eq_ok.mp hrun
  have hfirst : Saves w w₁ := (freeAlloc_saves 1).of_ok halloc
  by_cases hresult : result = 0
  · rw [if_neg (not_not.mpr hresult)] at hrun₁
    cases hrun₁
    exact .inl hfirst
  rw [if_pos hresult] at hrun₁
  obtain ⟨ok, w₂, hread, hrun₂⟩ := EStateM.run_bind_eq_ok.mp hrun₁
  have hsecond : Saves w w₂ := trans_of Saves hfirst ((sbBread_reading env result).of_ok hread)
  cases ok with
  | false =>
    cases hrun₂
    exact .inl hsecond
  | true =>
    rw [if_neg (by decide), EStateM.run_bind_of_ok (run_makeDir result w₂)] at hrun₂
    dsimp only at hrun₂
    rw [if_neg (by decide)] at hrun₂
    cases hrun₂
    have hwrite : SavesBut {s} w₂ (w₂.setBlock s (withDir ⟨0, 0⟩ (w₂.disk s))) := WritesBlock.setBlock w₂ _
    exact .inr ⟨hresult, trans_of (SavesBut {s}) (hsecond.but _) hwrite⟩

theorem spfsAddChildLit_saves (p child fuel start : ℕ) : Returns Saves (spfsAddChildLit env p child fuel start) := by
  have hfirst (fuel : ℕ) : Returns Saves (spfsAddChildLit env p child fuel 0) := by
    intro w r w' hrun
    rw [spfsAddChildLit] at hrun
    obtain ⟨⟨s, pos⟩, w₁, halloc, hrun₁⟩ := EStateM.run_bind_eq_ok.mp hrun
    have hput (A : Set ℕ) : Returns (SavesBut A) (modifyInode p fun i => { i with start := s }) :=
      (modifyInode_reading p _).returns
    have hadd : Settles (SavesBut {s}) Saves (do
        addToBlock s pos ⟨0, 0⟩ child
        brelse s
        return 0 : Kernel ℤ) :=
      (settles_addToBlock s pos ⟨0, 0⟩ child).bind_returns fun _ => (brelse_reading s).returns.bind fun _ => .pure _
    rcases spfsDirBlockAlloc_saves env halloc with hsaves | ⟨hs, howes⟩
    · have hrest : Returns Saves (do
          modifyInode p fun i => { i with start := s }
          if s = 0 then
            return -EINVAL
          addToBlock s pos ⟨0, 0⟩ child
          brelse s
          return 0 : Kernel ℤ) :=
        (hput ∅).bind fun _ => Returns.ite (fun _ => .pure _) fun _ => hadd.returns
      exact trans_of Saves hsaves (hrest _ _ _ hrun₁)
    · obtain ⟨_, w₂, hmodify, hrun₂⟩ := EStateM.run_bind_eq_ok.mp hrun₁
      rw [if_neg hs] at hrun₂
      exact hadd w w₂ _ _ (trans_of (SavesBut {s}) howes (hput {s} _ _ _ hmodify)) hrun₂
  induction fuel generalizing start with
  | zero =>
    cases start with
    | zero => exact hfirst 0
    | succ start => exact .throw _
  | succ fuel ih =>
    cases start with
    | zero => exact hfirst (fuel + 1)
    | succ start =>
      unfold spfsAddChildLit
      refine (sbBread_reading env _).returns.bind fun ok => Returns.ite (fun _ => .pure _) fun _ => ?_
      refine (within_parseBuf _ _ _).returns.bind fun r => ?_
      rcases r with ⟨_ | block, bhPos⟩
      · exact .pure _
      refine Returns.ite (fun _ => ?_) fun _ => (brelse_reading _).returns.bind fun _ => ih _
      exact (settles_addToBlock _ _ _ _).returns.bind fun _ => (brelse_reading _).returns.bind fun _ => .pure _

theorem spfsAddChild_saves (p child : ℕ) : Returns Saves (spfsAddChild env p child) := by
  unfold spfsAddChild
  refine (mutexLock_reading p).returns.bind fun _ => (modifyInode_reading p _).returns.bind fun _ => ?_
  refine (modifyInode_reading p _).returns.bind fun _ => (within_getInode p).returns.bind fun parent => ?_
  refine (spfsAddChildLit_saves env p child _ _).bind fun res => ?_
  exact (mutexUnlock_reading p).returns.bind fun _ => .pure _

theorem createOp_saves (op : CreateOp) (parent : ℕ) (dentry : Dentry) (mode : ℕ) :
    Returns Saves (op.run env parent dentry mode) := by
  have hid (w : World) (id : ℕ) : Saves w (w.setId id) := ⟨[], rfl, .inl fun _ _ h => absurd rfl h⟩
  have hlink : Within Saves (op.link parent) := by
    cases op with
    | create => exact Within.pure _
    | mkdir => exact incNlink_reading parent
  have hgeneric : Returns Saves (spfsGenericCreate env parent dentry mode) := by
    unfold spfsGenericCreate
    refine (within_getInode parent).returns.bind fun dir => (within_superOf dir).returns.bind fun _ => ?_
    split
    · refine (spfsNewInode_reading env hid _ mode).returns.bind fun inode => ?_
      cases inode with
      | error e => exact .throw _
      | ok inode =>
        refine (modifyInode_reading inode _).returns.bind fun _ => (within_getInode inode).returns.bind fun i => ?_
        exact (spfsBtreeInsert_saves env i).bind fun res => Returns.ite (fun _ => .pure _) fun _ => .pure _
    · exact .pure _
  unfold CreateOp.run
  refine (within_bugOn _).returns.bind fun _ => (within_getInode parent).returns.bind fun dir => ?_
  refine (within_bugOn _).returns.bind fun _ => hgeneric.bind fun r => Returns.ite (fun _ => .pure _) fun _ => ?_
  split
  · exact .throw _
  · refine hlink.returns.bind fun _ => (within_getInode _).returns.bind fun child => ?_
    exact (spfsAddChild_saves env _ _).bind fun _ => .pure _

/-! ## Files -/

theorem spfsFileExtentAlloc_saves (blocks : ℕ) : Returns Saves (spfsFileExtentAlloc env blocks) := by
  unfold spfsFileExtentAlloc
  refine (freeAlloc_saves blocks).returns.bind fun s => Returns.ite (fun _ => ?_) fun _ => .pure _
  refine (sbBread_reading env s).returns.bind fun ok => (within_bugOn _).returns.bind fun _ => ?_
  intro w r w' hrun
  obtain ⟨⟨res, pos⟩, w₁, hmake, hrun₁⟩ := EStateM.run_bind_eq_ok.mp hrun
  have howes : SavesBut {s} w w₁ := (makeBuf_service s 0 _).of_ok hmake
  rw [run_makeBuf, run_spfsMakeFileExtent _ w.le_bSize] at hmake
  cases hmake
  dsimp only at hrun₁
  rw [if_neg (by decide)] at hrun₁
  have hmark : Settles (SavesBut {s}) Saves (do
      markBufferDirty s
      brelse s
      return s : Kernel ℕ) :=
    (settles_markBufferDirty s).bind_returns fun _ => (brelse_reading s).returns.bind fun _ => .pure _
  exact hmark _ _ _ _ howes hrun₁

/-- What was written is owed, if it is anything. -/
theorem spfsDoWrite_owes {w w' : World} {s bhPos n : ℕ} {rest rest' : WriteRest}
    (hrun : (spfsDoWrite s bhPos rest).run w = .ok (n, rest') w') : SavesBut {s} w w' ∧ (n = 0 → Saves w w') := by
  have howes : SavesBut {s} w w' := (spfsDoWrite_service s bhPos rest).of_ok hrun
  refine ⟨howes, fun hn => howes.same ?_⟩
  by_cases hpos : bhPos ≤ w.bSize
  · rw [run_spfsDoWrite hpos] at hrun
    cases hrun
    simp [hn, Block.write_nil]
  · rw [spfsDoWrite, EStateM.run_bind_of_ok (EStateM.run_get w),
      EStateM.run_bind_of_error (run_spfsSbRemaining_bug (Nat.lt_of_not_le hpos) w)] at hrun
    cases hrun

/-- The walk over the other blocks of an extent marks them, and stops early at one that cannot be
read only. -/
theorem spfsWriteFileExtentBlocks_saves {w w' : World} {n it : ℕ} {e : ExtentWrite} {r : Except ℤ ExtentWrite}
    (hrun : (spfsWriteFileExtentBlocks env n it e).run w = .ok r w') : Saves w w' ∧
      ((∃ e', r = .ok e' ∧ (e.headDirty = true → e'.headDirty = true)) ∨ ∃ res, r = .error res ∧ Unread w w') := by
  induction n generalizing w it e with
  | zero =>
    cases hrun
    exact ⟨refl_of Saves _, .inl ⟨e, rfl, id⟩⟩
  | succ n ih =>
    have hthen {w₁ : World} {e₁ : ExtentWrite} {it : ℕ} (hfirst : Saves w w₁)
        (hrest : (spfsWriteFileExtentBlocks env n it e₁).run w₁ = .ok r w')
        (hhead : e.headDirty = true → e₁.headDirty = true) : Saves w w' ∧
          ((∃ e', r = .ok e' ∧ (e.headDirty = true → e'.headDirty = true)) ∨ ∃ res, r = .error res ∧ Unread w w') := by
      obtain ⟨hsaves, hend⟩ := ih hrest
      refine ⟨trans_of Saves hfirst hsaves, hend.imp ?_ ?_⟩
      · rintro ⟨e', hr, he⟩
        exact ⟨e', hr, he ∘ hhead⟩
      · rintro ⟨res, hr, hunread⟩
        exact ⟨res, hr, hfirst.unread hunread⟩
    rw [spfsWriteFileExtentBlocks] at hrun
    by_cases hbuf : e.rest.buf = []
    · rw [if_pos hbuf] at hrun
      cases hrun
      exact ⟨refl_of Saves _, .inl ⟨e, rfl, id⟩⟩
    rw [if_neg hbuf, EStateM.run_bind_of_ok (EStateM.run_get w)] at hrun
    by_cases hin : spfsInSector w.sbi e.rest.pos = true
    · rw [if_pos hin, EStateM.run_bind_of_ok (run_sbBread env it w)] at hrun
      by_cases hio : env.ioOk w.time it = true
      · rw [if_neg (by simp [hio])] at hrun
        obtain ⟨⟨res, rest⟩, w₁, hwrite, hrun₁⟩ := EStateM.run_bind_eq_ok.mp hrun
        obtain ⟨howes, hnone⟩ := spfsDoWrite_owes hwrite
        have hread : Saves w (w.addEvent (.bread it (env.ioOk w.time it))) := IgnoresReads.addEvent w _ rfl
        dsimp only at hrun₁
        by_cases hres : res > 0
        · rw [if_pos hres] at hrun₁
          obtain ⟨_, w₂, hmark, hrun₂⟩ := EStateM.run_bind_eq_ok.mp hrun₁
          obtain ⟨_, w₃, hrelse, hrun₃⟩ := EStateM.run_bind_eq_ok.mp hrun₂
          have hmarked : Saves w w₂ :=
            settles_markBufferDirty it w w₁ _ w₂ (trans_of (SavesBut {it}) (hread.but _) howes) hmark
          have hreleased : Saves w w₃ := trans_of Saves hmarked ((brelse_reading it).of_ok hrelse)
          exact hthen hreleased hrun₃ fun hhead => by simp [hhead]
        · rw [if_neg hres] at hrun₁
          obtain ⟨_, w₃, hrelse, hrun₃⟩ := EStateM.run_bind_eq_ok.mp hrun₁
          have hreleased : Saves w w₃ := trans_of Saves (trans_of Saves hread (hnone (by omega)))
            ((brelse_reading it).of_ok hrelse)
          exact hthen hreleased hrun₃ fun hhead => by simp [hhead]
      · rw [if_pos (by simp [hio])] at hrun
        cases hrun
        have hunread : Unread w (w.addEvent (.bread it (env.ioOk w.time it))) :=
          ⟨[.bread it (env.ioOk w.time it)], rfl, it, by simp [hio]⟩
        exact ⟨hunread.saves, .inr ⟨_, rfl, hunread⟩⟩
    · rw [if_neg hin, EStateM.run_bind_of_ok (EStateM.run_get w)] at hrun
      obtain ⟨_, w₁, hbug, hrun₁⟩ := EStateM.run_bind_eq_ok.mp hrun
      exact hthen ((within_bugOn _).of_ok hbug) hrun₁ id

/-- The header is written when anything went to its block. -/
theorem spfsWriteFileExtent_saves (s : ℕ) (rest : WriteRest) (extra : ℕ) :
    Returns Saves (spfsWriteFileExtent env s rest extra) := by
  unfold spfsWriteFileExtent
  refine (sbBread_reading env s).returns.bind fun ok => Returns.ite (fun _ => .pure _) fun _ => ?_
  refine (within_parseBuf _ _ _).returns.bind fun r => ?_
  rcases r with ⟨_ | header, headPos⟩
  · exact .pure _
  intro w r w' hrun
  obtain ⟨⟨written, rest'⟩, w₁, hwrite, hrun₁⟩ := EStateM.run_bind_eq_ok.mp hrun
  obtain ⟨r₂, w₂, hblocks, hrun₂⟩ := EStateM.run_bind_eq_ok.mp hrun₁
  obtain ⟨howes, hnone⟩ := spfsDoWrite_owes hwrite
  obtain ⟨hsaves, ⟨e, rfl, hhead⟩ | ⟨res, rfl, hunread⟩⟩ := spfsWriteFileExtentBlocks_saves env hblocks
  · have hrelse (r : ℤ × FileExtent × WriteRest × ℕ) : Returns Saves (do
        brelse s
        return r) := (brelse_reading s).returns.bind fun _ => .pure _
    dsimp only at hrun₂ hhead
    by_cases hdirty : e.headDirty = true
    · rw [if_pos hdirty] at hrun₂
      have hput (r : ℤ × FileExtent × WriteRest × ℕ) : Settles (SavesBut {s}) Saves (do
          let made ← makeBuf s 0 (spfsMakeFileExtent e.header)
          bugOn (made.1 ≠ 0)
          markBufferDirty s
          brelse s
          return r : Kernel (ℤ × FileExtent × WriteRest × ℕ)) := by
        refine Settles.bind (makeBuf_service s 0 _).returns fun _ => Settles.bind (within_bugOn _).returns fun _ => ?_
        exact (settles_markBufferDirty s).bind_returns fun _ => hrelse r
      exact hput _ w w₂ _ _ (trans_of (SavesBut {s}) howes (hsaves.but _)) hrun₂
    · rw [if_neg hdirty] at hrun₂
      have hwritten : written = 0 := by
        by_contra hne
        exact hdirty (hhead (by simp [Nat.pos_of_ne_zero hne]))
      exact trans_of Saves (trans_of Saves (hnone hwritten) hsaves) (hrelse _ _ _ _ hrun₂)
  · cases hrun₂
    exact (howes.unread hunread).saves

theorem spfsWriteLit_saves (fuel start : ℕ) (rest : WriteRest) (extra : ℕ) (written : ℤ) :
    Returns Saves (spfsWriteLit env fuel start rest extra written) := by
  induction fuel generalizing start rest extra written with
  | zero =>
    cases start with
    | zero => exact .pure _
    | succ start => exact .throw _
  | succ fuel ih =>
    cases start with
    | zero => exact .pure _
    | succ start =>
      refine (spfsWriteFileExtent_saves env _ _ _).bind fun r => ?_
      exact Returns.ite (fun _ => .pure _) fun _ => Returns.ite (fun _ => ih _ _ _ _) fun _ => .pure _

theorem spfsEnsureCapacity_saves (p inPos inLen : ℕ) : Returns Saves (spfsEnsureCapacity env p inPos inLen) := by
  unfold spfsEnsureCapacity
  refine (within_getInode p).returns.bind fun inode => (within_followSb inode).returns.bind fun sbi => ?_
  refine Returns.ite (fun _ => .pure _) fun _ => ?_
  refine (spfsFileExtentAlloc_saves env _).bind fun extra => Returns.ite (fun _ => .pure _) fun _ => ?_
  have hbytes : Within Saves (spfsFileExtentDataBytes sbi
      (spfsCalcExtraBlocks sbi.blockSize inode.capacity inPos inLen)) :=
    (within_bugOn _).bind fun _ => Within.pure _
  refine (modifyInode_reading p _).returns.bind fun _ => hbytes.returns.bind fun bytes => ?_
  refine (modifyInode_reading p _).returns.bind fun _ => (within_getInode p).returns.bind fun inode => ?_
  exact (spfsBtreeModify_saves env _ _ _).returns.bind fun r => .pure _

theorem spfsWrite_saves (p : ℕ) (inBuf : List UInt8) (ppos : ℕ) : Returns Saves (spfsWrite env p inBuf ppos) := by
  unfold spfsWrite
  refine Returns.ite (fun _ => .pure _) fun _ => (within_getInode p).returns.bind fun inode => ?_
  refine Returns.ite (fun _ => .pure _) fun _ => (mutexLockInterruptible_reading env p).returns.bind fun intr => ?_
  refine Returns.ite (fun _ => .pure _) fun _ => (spfsEnsureCapacity_saves env p _ _).bind fun r => ?_
  refine Returns.ite (fun _ => .pure _) fun _ => (within_getInode p).returns.bind fun inode => ?_
  refine (spfsWriteLit_saves env _ _ _ _ _).bind fun r => ?_
  rcases r with res | ⟨written, rest, extra⟩
  · exact .pure _
  refine (within_bugOn _).returns.bind fun _ => (within_bugOn _).returns.bind fun _ => ?_
  exact (modifyInode_reading p _).returns.bind fun _ => (mutexUnlock_reading p).returns.bind fun _ => .pure _

/-! ## Runs -/

theorem VfsCall.saves (call : VfsCall) : Returns Saves (call.run env) := by
  cases call with
  | create op parent dentry mode => exact (createOp_saves env op parent dentry mode).bind fun _ => .pure _
  | write p inBuf ppos => exact (spfsWrite_saves env p inBuf ppos).bind fun _ => .pure _
  | writeInode p => exact ((spfsWriteInode_saves env p).bind fun _ => Within.pure _).returns
  | lookup | iterate | read | iput | freeInode => exact (VfsCall.within_reading env rfl).returns

end Calls

/-- Each call of a run returns. -/
def AllReturn : World → List (Env × VfsCall) → Prop
  | _, [] => True
  | w, call :: calls => (∃ r w', (call.2.run call.1).run w = .ok r w') ∧
      AllReturn ((call.2.run call.1).run w).final calls

theorem runCalls_saves {w : World} {calls : List (Env × VfsCall)} (h : AllReturn w calls) :
    Saves w (runCalls w calls) := by
  induction calls generalizing w with
  | nil => exact refl_of Saves w
  | cons call calls ih =>
    obtain ⟨⟨r, w', hrun⟩, hcalls⟩ := h
    have hcall : Saves w ((call.2.run call.1).run w).final := by
      rw [hrun]
      exact VfsCall.saves call.1 call.2 w r w' hrun
    exact trans_of Saves hcall (ih hcalls)

/-- The blocks of the device after the buffers that were marked as dirty are written to it. -/
def writeBack (es : List Event) (buffers device : ℕ → Block) (s : ℕ) : Block :=
  if Event.dirty s ∈ es then buffers s else device s

/-- A file that grew in memory is stored, and forgotten. -/
def storeCalls : List (Env × VfsCall) := [(.calm 9, .writeInode 1), (.calm 9, .freeInode 1)]

end Spfs
