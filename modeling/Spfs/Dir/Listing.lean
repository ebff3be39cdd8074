-- SUMMARY: What a directory lists, and the traversal of spfs_for_all_children as visits of the listed ids in order.
import Spfs.Dir

/-!
# What a directory lists

The reader sees a block as a row of words and takes the words that are not zero for ids,
as many as the header counts. A chain of such blocks lists the ids of its blocks one after
the other (`DirLists`). On a directory that lists blocks, `spfs_for_all_children` is
nothing but a visit of each listed id (`run_spfsForAllChildren`).
-/

namespace Spfs

open EStateM (Within)

/-! ## Words of a block -/

/-- The words of a block from `pos` on that the reader of ids can read. -/
def wordsFrom (bSize : ℕ) (b : Block) (pos : ℕ) : List ℕ :=
  (List.range ((bSize - 4 - pos) / 4)).map fun j => beDecode (b.read (pos + 4 * j) 4)

/-- The words that are taken for ids. -/
def entriesFrom (bSize : ℕ) (b : Block) (pos : ℕ) : List ℕ :=
  (wordsFrom bSize b pos).filter (· ≠ 0)

section Words

variable {bSize pos : ℕ} {b : Block}

theorem wordsFrom_of_short (h : bSize < pos + 8) : wordsFrom bSize b pos = [] := by
  have hnone : (bSize - 4 - pos) / 4 = 0 := by omega
  rw [wordsFrom, hnone]
  rfl

theorem wordsFrom_of_le (h : pos + 8 ≤ bSize) :
    wordsFrom bSize b pos = beDecode (b.read pos 4) :: wordsFrom bSize b (pos + 4) := by
  have hcount : (bSize - 4 - pos) / 4 = (bSize - 4 - (pos + 4)) / 4 + 1 := by omega
  rw [wordsFrom, hcount, List.range_succ_eq_map, List.map_cons, List.map_map, wordsFrom]
  congr 1
  apply List.map_congr_left
  intro j _
  have hat : pos + 4 * (j + 1) = pos + 4 + 4 * j := by omega
  show beDecode (b.read (pos + 4 * (j + 1)) 4) = _
  rw [hat]

theorem entriesFrom_of_short (h : bSize < pos + 8) : entriesFrom bSize b pos = [] := by
  rw [entriesFrom, wordsFrom_of_short h]
  rfl

theorem entriesFrom_of_zero (h : pos + 8 ≤ bSize) (hzero : beDecode (b.read pos 4) = 0) :
    entriesFrom bSize b pos = entriesFrom bSize b (pos + 4) := by
  rw [entriesFrom, wordsFrom_of_le h, List.filter_cons_of_neg (by simpa using hzero)]
  rfl

theorem entriesFrom_of_ne_zero (h : pos + 8 ≤ bSize) (hne : beDecode (b.read pos 4) ≠ 0) :
    entriesFrom bSize b pos = beDecode (b.read pos 4) :: entriesFrom bSize b (pos + 4) := by
  rw [entriesFrom, wordsFrom_of_le h, List.filter_cons_of_pos (by simpa using hne)]
  rfl

end Words

/-! ## Visits -/

section Visits

variable {γ : Type} (env : Env) (f : ForAllCb γ)

/-- Look up each id and call the callback on what is found, until it says to stop. Ids
whose lookup is an error are left out. -/
def visitAll : List ℕ → γ → Kernel (γ × Bool)
  | [], closure => return (closure, true)
  | id :: ids, closure => do
    match ← spfsInodeById env id with
    | .error _ => visitAll ids closure
    | .ok child =>
      let (closure, more) ← f closure child
      if !more then
        return (closure, false)
      visitAll ids closure

/-- Visit the ids of one block after the other. -/
def visitBlocks : List (ℕ × List ℕ) → γ → Kernel (γ × Bool)
  | [], closure => return (closure, true)
  | (s, ids) :: blocks, closure => do
    emit (.bread s true)
    let (closure, more) ← visitAll env f ids closure
    brelse s
    if !more then
      return (closure, false)
    visitBlocks blocks closure

/-- A callback that only looks at the store. -/
def KeepsStore : Prop := ∀ closure child, Within SameStore (f closure child)

variable {env f}

theorem within_visitAll (hf : KeepsStore f) (ids : List ℕ) (closure : γ) :
    Within SameStore (visitAll env f ids closure) := by
  induction ids generalizing closure with
  | nil => exact Within.pure _
  | cons id ids ih =>
    unfold visitAll
    refine Within.bind ((within_spfsInodeById env id).mono fun _ _ h => h.store) fun r => ?_
    split
    · exact ih closure
    · refine (hf _ _).bind fun r => Within.ite (fun _ => Within.pure _) fun _ => ih _

theorem within_visitBlocks (hf : KeepsStore f) (blocks : List (ℕ × List ℕ)) (closure : γ) :
    Within SameStore (visitBlocks env f blocks closure) := by
  induction blocks generalizing closure with
  | nil => exact Within.pure _
  | cons block blocks ih =>
    obtain ⟨s, ids⟩ := block
    refine (within_emit _).bind fun _ => (within_visitAll hf ids closure).bind fun r => ?_
    exact (within_brelse s).bind fun _ => Within.ite (fun _ => Within.pure _) fun _ => ih _

/-- The loop over a block visits the words that it takes for ids, up to the count. -/
theorem run_spfsForAllChildrenWhile (env : Env) (hf : KeepsStore f) (s children n i pos : ℕ) (closure : γ)
    {w : World} (hpos : pos ≤ w.bSize) (hn : (w.bSize - 4 - pos) / 4 < n) :
    (spfsForAllChildrenWhile env f s children n i pos closure).run w =
      (do
        let (closure, more) ←
          visitAll env f ((entriesFrom w.bSize (w.disk s) pos).take (children - i)) closure
        if !more then
          brelse s
          return (some 0, closure)
        if children - i ≤ (entriesFrom w.bSize (w.disk s) pos).length then
          return (none, closure)
        return (some (-EINVAL), closure)).run w := by
  induction n generalizing i pos closure w with
  | zero => omega
  | succ n ih =>
    rw [spfsForAllChildrenWhile]
    by_cases hi : i < children
    · rw [if_pos hi]
      by_cases hread : pos + 8 ≤ w.bSize
      · have hparse : (parseBuf s pos spfsSbReadIno).run w =
            .ok (some (beDecode ((w.disk s).read pos 4)), pos + 4) w := by
          rw [run_parseBuf, run_spfsSbReadIno hread]
        rw [EStateM.run_bind_of_ok hparse]
        dsimp only
        by_cases hzero : beDecode ((w.disk s).read pos 4) = 0
        · rw [if_pos hzero, entriesFrom_of_zero hread hzero, ih _ _ _ (by omega) (by omega)]
        · have hcount : children - i = children - (i + 1) + 1 := by omega
          rw [if_neg hzero, entriesFrom_of_ne_zero hread hzero, hcount, List.take_succ_cons, visitAll,
            List.length_cons, bind_assoc]
          simp only [Nat.add_le_add_iff_right]
          cases hid : (spfsInodeById env (beDecode ((w.disk s).read pos 4))).run w with
          | error e w₁ => rw [EStateM.run_bind_of_error hid, EStateM.run_bind_of_error hid]
          | ok r w₁ =>
            have hsame := ((within_spfsInodeById env _).of_ok hid).store
            rw [EStateM.run_bind_of_ok hid, EStateM.run_bind_of_ok hid, ← hsame.disk, ← hsame.bSize]
            cases r with
            | error e => exact ih _ _ _ (by rw [hsame.bSize]; omega) (by rw [hsame.bSize]; omega)
            | ok child =>
              dsimp only
              rw [bind_assoc]
              cases hcall : (f closure child).run w₁ with
              | error e w₂ => rw [EStateM.run_bind_of_error hcall, EStateM.run_bind_of_error hcall]
              | ok r w₂ =>
                obtain ⟨closure', more⟩ := r
                have hkept := (hf closure child).of_ok hcall
                rw [EStateM.run_bind_of_ok hcall, EStateM.run_bind_of_ok hcall, ← hkept.disk,
                  ← hkept.bSize]
                dsimp only
                cases more with
                | false => rfl
                | true =>
                  exact ih _ _ _ (by rw [hkept.bSize, hsame.bSize]; omega)
                    (by rw [hkept.bSize, hsame.bSize]; omega)
      · have hparse : (parseBuf s pos spfsSbReadIno).run w = .ok (none, pos) w := by
          rw [run_parseBuf, spfsSbReadIno, run_readField_short (by omega) hpos]
        rw [EStateM.run_bind_of_ok hparse, entriesFrom_of_short (by omega), List.take_nil]
        have hmore : ¬ children - i ≤ 0 := by omega
        show EStateM.Result.ok (some (-EINVAL), closure) w = _
        rw [visitAll, EStateM.run_bind_of_ok (EStateM.run_pure _ _)]
        dsimp only
        rw [List.length_nil, if_neg hmore]
        rfl
    · have hnone : children - i = 0 := by omega
      rw [if_neg hi, hnone, List.take_zero, visitAll, EStateM.run_bind_of_ok (EStateM.run_pure _ _)]
      dsimp only
      rw [if_pos (Nat.zero_le _)]
      rfl

end Visits

/-! ## Directories that list ids -/

/-- The chain of blocks from a sector on, each with the ids that it lists. -/
inductive DirLists (bSize : ℕ) (disk : ℕ → Block) : ℕ → List (ℕ × List ℕ) → Prop
  | nil : DirLists bSize disk 0 []
  | cons {s : ℕ} {block : DirBlock} {blocks : List (ℕ × List ℕ)} (hs : s ≠ 0)
      (hdir : DirAt (disk s) block)
      (hcount : block.children ≤ (entriesFrom bSize (disk s) 12).length)
      (hnext : DirLists bSize disk block.next blocks) :
      DirLists bSize disk s ((s, (entriesFrom bSize (disk s) 12).take block.children) :: blocks)

/-- The ids of all blocks. -/
def listedIds (blocks : List (ℕ × List ℕ)) : List ℕ := blocks.flatMap Prod.snd

theorem DirLists.unique {bSize start : ℕ} {disk : ℕ → Block} {blocks blocks' : List (ℕ × List ℕ)}
    (h : DirLists bSize disk start blocks) (h' : DirLists bSize disk start blocks') :
    blocks = blocks' := by
  induction h generalizing blocks' with
  | nil =>
    cases h' with
    | nil => rfl
    | cons hs => exact absurd rfl hs
  | cons hs hdir _ _ ih =>
    cases h' with
    | nil => exact absurd rfl hs
    | cons _ hdir' _ hnext' =>
      obtain rfl := hdir.eq.symm.trans hdir'.eq
      rw [ih hnext']

section Runs

variable {γ : Type} {env : Env} {f : ForAllCb γ} {p : ℕ} {w : World} {i : SpfsInode}

/-- A block that cannot be read ends the traversal. -/
theorem spfsForAllChildrenLit_unread {start n : ℕ} (hs : start ≠ 0)
    (hio : env.ioOk w.time start = false) (closure : γ) :
    (spfsForAllChildrenLit env f (n + 1) start closure).run w =
      .ok (- EIO, closure) (w.addEvent (.bread start false)) := by
  have hread : (sbBread env start).run w = .ok false (w.addEvent (.bread start false)) :=
    run_sbBread_failed hio
  rw [spfsForAllChildrenLit, EStateM.run_check_of_false hread]
  exact hs

/-- A block that is no directory block ends it too. -/
theorem spfsForAllChildrenLit_stray {start n : ℕ} (hs : start ≠ 0)
    (hio : env.ioOk w.time start = true) (hmagic : dirMagic (w.disk start) ≠ spookyFsDirBlockMagic)
    (closure : γ) :
    (spfsForAllChildrenLit env f (n + 1) start closure).run w =
      .ok (-EINVAL, closure) (w.addEvent (.bread start true)) := by
  have hread : (sbBread env start).run w = .ok true (w.addEvent (.bread start true)) :=
    run_sbBread_ok hio
  have hmagic' : dirMagic ((w.addEvent (.bread start true)).disk start) ≠ spookyFsDirBlockMagic := hmagic
  rw [spfsForAllChildrenLit, EStateM.run_check_of_true hread,
    EStateM.run_bind_of_ok (run_parse_of_not_dir hmagic')]
  · rfl
  · exact hs

/-- The step of the loop at a directory block: its ids are visited, up to the count, and a
block with too few of them ends the traversal. -/
theorem spfsForAllChildrenLit_block (hf : KeepsStore f) {start n : ℕ} {header : DirBlock}
    (hs : start ≠ 0) (hio : env.ioOk w.time start = true) (hdir : DirAt (w.disk start) header)
    (closure : γ) :
    (spfsForAllChildrenLit env f (n + 1) start closure).run w =
      (do
        let r ← visitAll env f ((entriesFrom w.bSize (w.disk start) 12).take header.children) closure
        if !r.2 then
          brelse start
          return (0, r.1)
        if header.children ≤ (entriesFrom w.bSize (w.disk start) 12).length then
          brelse start
          spfsForAllChildrenLit env f n header.next r.1
        else
          return (-EINVAL, r.1) : Kernel (ℤ × γ)).run (w.addEvent (.bread start true)) := by
  set w₁ := w.addEvent (.bread start true)
  have hread : (sbBread env start).run w = .ok true w₁ := run_sbBread_ok hio
  have hdir₁ : DirAt (w₁.disk start) header := hdir
  have hle := w₁.le_bSize
  have hwhile := run_spfsForAllChildrenWhile env hf start header.children w₁.bSize 0 12 closure
    (w := w₁) (by omega) (by omega)
  have hsame : entriesFrom w.bSize (w.disk start) 12 = entriesFrom w₁.bSize (w₁.disk start) 12 := rfl
  rw [spfsForAllChildrenLit, EStateM.run_check_of_true hread, EStateM.run_bind_of_ok hdir₁.run_parse]
  dsimp only
  rw [EStateM.run_bind_of_ok (EStateM.run_get w₁), EStateM.run_bind_match, hwhile, Nat.sub_zero, hsame]
  cases hvisit : (visitAll env f ((entriesFrom w₁.bSize (w₁.disk start) 12).take header.children)
      closure).run w₁ with
  | error e w₂ => rw [EStateM.run_bind_of_error hvisit, EStateM.run_bind_of_error hvisit]
  | ok r w₂ =>
    rw [EStateM.run_bind_of_ok hvisit, EStateM.run_bind_of_ok hvisit]
    obtain ⟨closure', more⟩ := r
    cases more with
    | false => rfl
    | true =>
      dsimp only
      by_cases hcount : header.children ≤ (entriesFrom w₁.bSize (w₁.disk start) 12).length
      · rw [if_neg (by simp), if_pos hcount, if_neg (by simp), if_pos hcount]
        rfl
      · rw [if_neg (by simp), if_neg hcount, if_neg (by simp), if_neg hcount]
        rfl
  case x_3 => exact hs

theorem run_spfsForAllChildrenLit (hio : ∀ t s, env.ioOk t s = true) (hf : KeepsStore f)
    {start : ℕ} {blocks : List (ℕ × List ℕ)} (h : DirLists w.bSize w.disk start blocks)
    {fuel : ℕ} (hfuel : blocks.length ≤ fuel) (closure : γ) :
    (spfsForAllChildrenLit env f fuel start closure).run w =
      (do
        let r ← visitBlocks env f blocks closure
        return (0, r.1) : Kernel (ℤ × γ)).run w := by
  induction blocks generalizing start fuel closure w with
  | nil =>
    cases h
    rw [spfsForAllChildrenLit_zero]
    rfl
  | cons block blocks ih =>
    cases h with
    | @cons s header _ hs hdir hcount hnext =>
    obtain ⟨n, rfl⟩ := Nat.exists_eq_succ_of_ne_zero (Nat.ne_of_gt (Nat.lt_of_lt_of_le
      (Nat.succ_pos blocks.length) hfuel))
    rw [spfsForAllChildrenLit_block hf hs (hio _ _) hdir, visitBlocks]
    simp only [bind_assoc]
    rw [EStateM.run_bind_of_ok (run_emit _ w)]
    set w₁ := w.addEvent (.bread start true)
    cases hvisit : (visitAll env f ((entriesFrom w.bSize (w.disk start) 12).take header.children)
        closure).run w₁ with
    | error e w₂ => rw [EStateM.run_bind_of_error hvisit, EStateM.run_bind_of_error hvisit]
    | ok r w₂ =>
      have hkept := (within_visitAll hf _ _).of_ok hvisit
      rw [EStateM.run_bind_of_ok hvisit, EStateM.run_bind_of_ok hvisit,
        EStateM.run_bind_of_ok (run_brelse start w₂)]
      obtain ⟨closure', more⟩ := r
      cases more with
      | false => rfl
      | true =>
        have hnext₂ : DirLists (w₂.addEvent (.brelse start)).bSize
            (w₂.addEvent (.brelse start)).disk header.next blocks := by
          rw [World.addEvent_bSize, World.addEvent_disk, hkept.disk, hkept.bSize]
          exact hnext
        dsimp only
        rw [if_neg (by simp), if_pos hcount]
        exact ih hnext₂ (Nat.le_of_succ_le_succ hfuel) closure'

/-- On a directory that lists blocks, the traversal visits what they list. -/
theorem run_spfsForAllChildren (hio : ∀ t s, env.ioOk t s = true) (hf : KeepsStore f)
    (hp : w.inodes p = some i) (hsb : i.iSb = .sb) (hmode : sIsDir i.iMode = true)
    (hlock : i.lock = false) {blocks : List (ℕ × List ℕ)}
    (h : DirLists w.bSize w.disk i.start blocks) (hfuel : blocks.length ≤ env.fuel) (closure : γ) :
    (spfsForAllChildren env f p closure).run w =
      (do
        mutexLock p
        let r ← visitBlocks env f blocks closure
        mutexUnlock p
        return (0, r.1) : Kernel (ℤ × γ)).run w := by
  have hlocked := run_mutexLock_of hp hlock
  rw [spfsForAllChildren, EStateM.run_bind_of_ok (run_getInode_of hp),
    EStateM.run_bind_of_ok (run_superOf hsb w), if_neg (by simp [hmode]),
    EStateM.run_bind_of_ok hlocked, EStateM.run_bind_of_ok hlocked]
  set w₁ := (w.setInode p { i with lock := true }).addEvent (.lock p)
  have hlists : DirLists w₁.bSize w₁.disk i.start blocks := h
  rw [EStateM.run_bind_match, run_spfsForAllChildrenLit hio hf hlists hfuel]
  cases hvisit : (visitBlocks env f blocks closure).run w₁ with
  | error e w₂ => rw [EStateM.run_bind_of_error hvisit, EStateM.run_bind_of_error hvisit]
  | ok r w₂ =>
    rw [EStateM.run_bind_of_ok hvisit, EStateM.run_bind_of_ok hvisit]
    rfl

end Runs

end Spfs
