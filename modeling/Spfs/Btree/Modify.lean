-- SUMMARY: btree.c: the walk to the record of an inode, lookup and modification of the record, and what a walk depends on.
import Spfs.Btree.Record
import Spfs.Btree.Search

/-!
# Walking the tree

`spfs_btree_modify` walks from the root to the entry of an inode and runs a
callback on the record the entry points to. Since a search of a node with entries
ends at the entry it looks for or not at all, the walk only ever descends through
nodes without entries. Where it gets to, `FirstNode`, does not depend on the inode.
-/

namespace Spfs

/-- A `btree_modify_cb` with its closure: the closure and the inode after the call,
and whether the record is dirty. -/
abbrev BtreeModifyCb (γ : Type) := γ → SpfsInode → Except Fault (γ × SpfsInode × Bool)

section Walk

variable {γ : Type} (env : Env) (ino : ℕ) (closure : γ) (cb : BtreeModifyCb γ)

/-- The local `cur` is not initialised before the record is parsed into it. -/
def btreeVisitEntry (offset : ℕ) : Kernel (ℤ × γ) := do
  if offset = 0 then
    return (1, closure)
  if !(← sbBread env offset) then
    return (10, closure)
  let junk := env.junk (← get).time
  match ← parseBuf offset 0 (spfsInodeParse junk) with
  | (.error res, _) =>
    brelse offset
    return (res, closure)
  | (.ok cur, _) =>
    match cb closure cur with
    | .error f => throw f
    | .ok (closure, cur, dirty) =>
      if dirty then
        let stackAtStr := env.stack (← get).time
        let _ ← makeBuf offset 0 (spfsInodeMake stackAtStr cur)
        markBufferDirty offset
      brelse offset
      return (0, closure)

/-- The loop `Lit` from the node at `offset` on. -/
def spfsBtreeModifyLit : ℕ → ℕ → Kernel (ℤ × γ)
  | _, 0 => return (1, closure)
  | 0, _ => throw .fuel
  | fuel + 1, offset => do
    if !(← sbBread env offset) then
      return (- EIO, closure)
    match ← bnodeBinFindGte offset ino with
    | some gte =>
      if (← bentryId offset gte) = ino then
        let entryOffset ← bentryOffset offset gte
        brelse offset
        btreeVisitEntry env closure cb entryOffset
      else
        let next ← bnodeGetChild offset (bnodeIndexOf gte)
        brelse offset
        spfsBtreeModifyLit fuel next
    | none =>
      let next ← bnodeGetChild offset (← bnodeLength offset)
      brelse offset
      spfsBtreeModifyLit fuel next

def spfsBtreeModify : Kernel (ℤ × γ) := do
  spfsBtreeModifyLit env ino closure cb env.fuel (← get).sbi.tree.start

end Walk

/-- Copies the whole record over the closure and does not alter it. -/
def spfsBtreeLookupCb : BtreeModifyCb SpfsInode :=
  fun _ result => .ok (result, result, false)

/-- The result code, and what the object `result` holds after the call. -/
def spfsBtreeLookup (env : Env) (ino : ℕ) (result : SpfsInode) : Kernel (ℤ × SpfsInode) :=
  spfsBtreeModify env ino result spfsBtreeLookupCb

/-! ## The first node with entries -/

/-- The walk from `start` passes through nodes without entries and comes to `s`. -/
inductive FirstNode (disk : ℕ → Block) (bSize : ℕ) : ℕ → ℕ → Prop where
  | here {s : ℕ} : s ≠ 0 → nodeLength (disk s) ≠ 0 → FirstNode disk bSize s s
  | down {start s : ℕ} : start ≠ 0 → nodeLength (disk start) = 0 →
      FirstNode disk bSize (childAt (disk start) 0) s → FirstNode disk bSize start s

/-- The walk from `start` finds an entry of `ino` that points to the record at
`offset`. -/
structure Finds (disk : ℕ → Block) (bSize start ino offset s j : ℕ) : Prop where
  first : FirstNode disk bSize start s
  le_capacity : nodeLength (disk s) ≤ 100
  hit : HitAt bSize (disk s) ino j
  offset_eq : offsetAt (disk s) (probe (nodeLength (disk s)) j) = offset
  offset_ne : offset ≠ 0

theorem FirstNode.start_ne {disk : ℕ → Block} {bSize start s : ℕ}
    (h : FirstNode disk bSize start s) : start ≠ 0 := by
  cases h <;> assumption

theorem FirstNode.unique {disk : ℕ → Block} {bSize start s s' : ℕ}
    (h : FirstNode disk bSize start s) (h' : FirstNode disk bSize start s') : s = s' := by
  induction h with
  | here _ hlen =>
    cases h' with
    | here => rfl
    | down _ hlen' => exact absurd hlen' hlen
  | down _ hlen _ ih =>
    cases h' with
    | here _ hlen' => exact absurd hlen hlen'
    | down _ _ hrest => exact ih hrest

theorem FirstNode.length_ne {disk : ℕ → Block} {bSize start s : ℕ}
    (h : FirstNode disk bSize start s) : nodeLength (disk s) ≠ 0 := by
  induction h with
  | here _ hlen => exact hlen
  | down _ _ _ ih => exact ih

/-- The record an inode is found at is determined by the tree. -/
theorem Finds.unique {disk : ℕ → Block} {bSize start ino offset offset' s s' j j' : ℕ}
    (h : Finds disk bSize start ino offset s j) (h' : Finds disk bSize start ino offset' s' j') :
    offset = offset' := by
  obtain rfl := h.first.unique h'.first
  obtain rfl := h.hit.unique h'.hit
  rw [← h.offset_eq, h'.offset_eq]

/-! ## What a walk does -/

section Cases

variable {γ : Type} {env : Env} {ino : ℕ} {closure : γ} {cb : BtreeModifyCb γ}

/-- The block of a record after the callback left it as `cur`. -/
def afterVisit (w : World) (offset : ℕ) (stackAtStr : Name) (cur : SpfsInode) (dirty : Bool) :
    World :=
  if dirty then w.setBlock offset (withRecord stackAtStr cur (w.disk offset)) else w

/-- A call that changes nothing but the log, and that only returns with the closure
as it was and not with 0. -/
def Fruitless (closure : γ) (w : World) (r : EStateM.Result Fault World (ℤ × γ)) : Prop :=
  OnlyLogs w r.final ∧ ∀ res cl w', r = .ok (res, cl) w' → res ≠ 0 ∧ cl = closure

theorem Fruitless.error {w w' : World} {f : Fault} (h : OnlyLogs w w') :
    Fruitless closure w (.error f w') :=
  ⟨h, nofun⟩

theorem Fruitless.ok {w w' : World} {res : ℤ} (h : OnlyLogs w w') (hres : res ≠ 0) :
    Fruitless closure w (.ok (res, closure) w') := by
  refine ⟨h, ?_⟩
  rintro _ _ _ ⟨⟩
  exact ⟨hres, rfl⟩

theorem Fruitless.of_onlyLogs {w w₁ : World} {r : EStateM.Result Fault World (ℤ × γ)}
    (h : Fruitless closure w₁ r) (hw : OnlyLogs w w₁) : Fruitless closure w r :=
  ⟨trans_of OnlyLogs hw h.1, h.2⟩

/-- Every way a visit can end. -/
inductive Visit (env : Env) (closure : γ) (cb : BtreeModifyCb γ) (offset : ℕ) (w : World) :
    EStateM.Result Fault World (ℤ × γ) → Prop where
  | none : offset = 0 → Visit env closure cb offset w (.ok (1, closure) w)
  | unread : offset ≠ 0 → env.ioOk w.time offset = false →
      Visit env closure cb offset w (.ok (10, closure) (w.addEvent (.bread offset false)))
  | malformed : offset ≠ 0 → env.ioOk w.time offset = true →
      recordMagic (w.disk offset) ≠ spookyFsBtreeMagic →
      Visit env closure cb offset w
        (.ok (-EINVAL, closure) ((w.addEvent (.bread offset true)).addEvent (.brelse offset)))
  | fault {f : Fault} : offset ≠ 0 → env.ioOk w.time offset = true →
      recordMagic (w.disk offset) = spookyFsBtreeMagic →
      cb closure (parsedInode (env.junk (w.time + 1)) (w.disk offset)) = .error f →
      Visit env closure cb offset w (.error f (w.addEvent (.bread offset true)))
  | clean {closure' : γ} {cur : SpfsInode} : offset ≠ 0 → env.ioOk w.time offset = true →
      recordMagic (w.disk offset) = spookyFsBtreeMagic →
      cb closure (parsedInode (env.junk (w.time + 1)) (w.disk offset)) =
        .ok (closure', cur, false) →
      Visit env closure cb offset w
        (.ok (0, closure') ((w.addEvent (.bread offset true)).addEvent (.brelse offset)))
  | dirty {closure' : γ} {cur : SpfsInode} : offset ≠ 0 → env.ioOk w.time offset = true →
      recordMagic (w.disk offset) = spookyFsBtreeMagic →
      cb closure (parsedInode (env.junk (w.time + 1)) (w.disk offset)) =
        .ok (closure', cur, true) →
      Visit env closure cb offset w
        (.ok (0, closure') ((((w.addEvent (.bread offset true)).setBlock offset
          (withRecord (env.stack (w.time + 1)) cur (w.disk offset))).addEvent
          (.dirty offset)).addEvent (.brelse offset)))

theorem btreeVisitEntry_visit (env : Env) (closure : γ) (cb : BtreeModifyCb γ) (offset : ℕ)
    (w : World) :
    Visit env closure cb offset w ((btreeVisitEntry env closure cb offset).run w) := by
  unfold btreeVisitEntry
  by_cases hoff : offset = 0
  · rw [if_pos hoff]
    exact .none hoff
  rw [if_neg hoff]
  by_cases hio : env.ioOk w.time offset
  case neg =>
    have hio' := Bool.eq_false_iff.mpr hio
    rw [EStateM.run_check_of_false (run_sbBread_failed hio')]
    exact .unread hoff hio'
  rw [EStateM.run_check_of_true (run_sbBread_ok hio)]
  set w₁ := w.addEvent (.bread offset true)
  have htime : w₁.time = w.time + 1 := rfl
  have hparse : (parseBuf offset 0 (spfsInodeParse (env.junk (w.time + 1)))).run w₁ =
      .ok (if recordMagic (w.disk offset) = spookyFsBtreeMagic then
        .ok (parsedInode (env.junk (w.time + 1)) (w.disk offset)) else .error (-EINVAL), 294) w₁ := by
    rw [run_parseBuf, run_spfsInodeParse w₁.le_bSize]
    rfl
  rw [EStateM.run_bind_of_ok (EStateM.run_get w₁), htime, EStateM.run_bind_of_ok hparse]
  by_cases hmagic : recordMagic (w.disk offset) = spookyFsBtreeMagic
  case neg =>
    rw [if_neg hmagic]
    exact .malformed hoff hio hmagic
  rw [if_pos hmagic]
  cases hcb : cb closure (parsedInode (env.junk (w.time + 1)) (w.disk offset)) with
  | error f =>
    simp only [hcb]
    exact .fault hoff hio hmagic hcb
  | ok res =>
    obtain ⟨closure', cur, dirty⟩ := res
    cases dirty with
    | false =>
      simp only [hcb]
      exact .clean hoff hio hmagic hcb
    | true =>
      have hmake : (makeBuf offset 0 (spfsInodeMake (env.stack (w.time + 1)) cur)).run w₁ =
          .ok (0, 294) (w₁.setBlock offset
            (withRecord (env.stack (w.time + 1)) cur (w.disk offset))) := by
        rw [run_makeBuf, run_spfsInodeMake w₁.le_bSize]
        rfl
      simp only [hcb, if_true]
      rw [EStateM.run_bind_of_ok (EStateM.run_get w₁), htime, EStateM.run_bind_of_ok hmake]
      exact .dirty hoff hio hmagic hcb

/-- A visit either changes nothing and fails, or it runs the callback on the record
and stores what the callback made dirty. -/
theorem btreeVisitEntry_cases (env : Env) (closure : γ) (cb : BtreeModifyCb γ) (offset : ℕ)
    (w : World) :
    Fruitless closure w ((btreeVisitEntry env closure cb offset).run w) ∨
    (offset ≠ 0 ∧ recordMagic (w.disk offset) = spookyFsBtreeMagic ∧
      ∃ closure' cur dirty w',
        cb closure (parsedInode (env.junk (w.time + 1)) (w.disk offset)) =
          .ok (closure', cur, dirty) ∧
        (btreeVisitEntry env closure cb offset).run w = .ok (0, closure') w' ∧
        w'.time = w.time + 1 + (if dirty then 2 else 1) ∧
        OnlyLogs (afterVisit w offset (env.stack (w.time + 1)) cur dirty) w') := by
  have hvisit := btreeVisitEntry_visit env closure cb offset w
  generalize (btreeVisitEntry env closure cb offset).run w = r at hvisit ⊢
  cases hvisit with
  | none => exact .inl (.ok (refl_of OnlyLogs w) (by decide))
  | unread => exact .inl (.ok ⟨[_], rfl⟩ (by decide))
  | malformed => exact .inl (.ok ⟨[_, _], rfl⟩ (by decide))
  | fault => exact .inl (.error ⟨[_], rfl⟩)
  | clean hoff _ hmagic hcb => exact .inr ⟨hoff, hmagic, _, _, _, _, hcb, rfl, rfl, ⟨[_, _], rfl⟩⟩
  | dirty hoff _ hmagic hcb => exact .inr ⟨hoff, hmagic, _, _, _, _, hcb, rfl, rfl, ⟨[_, _, _], rfl⟩⟩

/-- The walk has read the node at `start` and let go of it again. -/
def leaveNode (w : World) (start : ℕ) : World :=
  (w.addEvent (.bread start true)).addEvent (.brelse start)

theorem leaveNode_onlyLogs (w : World) (start : ℕ) : OnlyLogs w (leaveNode w start) :=
  ⟨[.brelse start, .bread start true], rfl⟩

@[simp] theorem leaveNode_time (w : World) (start : ℕ) : (leaveNode w start).time = w.time + 2 :=
  rfl

/-- Every way the walk can go on from a node. -/
inductive WalkStep (env : Env) (ino : ℕ) (closure : γ) (cb : BtreeModifyCb γ) (fuel start : ℕ)
    (w : World) : EStateM.Result Fault World (ℤ × γ) → Prop where
  | unread : env.ioOk w.time start = false →
      WalkStep env ino closure cb fuel start w
        (.ok (- EIO, closure) (w.addEvent (.bread start false)))
  /-- the node is longer than it can be, or the walk leaves the block -/
  | stuck {f : Fault} : env.ioOk w.time start = true →
      (100 < nodeLength (w.disk start) ∨
        nodeLength (w.disk start) = 0 ∧ ¬ childrenOff + 8 ≤ w.bSize ∨
        1 ≤ nodeLength (w.disk start) ∧ ∀ j, HitAt w.bSize (w.disk start) ino j →
          ¬ probe (nodeLength (w.disk start)) j + 16 ≤ w.bSize) →
      WalkStep env ino closure cb fuel start w (.error f (w.addEvent (.bread start true)))
  | down : env.ioOk w.time start = true → nodeLength (w.disk start) = 0 →
      childrenOff + 8 ≤ w.bSize →
      WalkStep env ino closure cb fuel start w
        ((spfsBtreeModifyLit env ino closure cb fuel (childAt (w.disk start) 0)).run
          (leaveNode w start))
  | hit {j : ℕ} : env.ioOk w.time start = true → 1 ≤ nodeLength (w.disk start) →
      nodeLength (w.disk start) ≤ 100 → HitAt w.bSize (w.disk start) ino j →
      probe (nodeLength (w.disk start)) j + 16 ≤ w.bSize →
      WalkStep env ino closure cb fuel start w
        ((btreeVisitEntry env closure cb
          (offsetAt (w.disk start) (probe (nodeLength (w.disk start)) j))).run (leaveNode w start))

theorem spfsBtreeModifyLit_step (env : Env) (ino : ℕ) (closure : γ) (cb : BtreeModifyCb γ)
    (fuel : ℕ) {start : ℕ} (hstart : start ≠ 0) (w : World) :
    WalkStep env ino closure cb fuel start w
      ((spfsBtreeModifyLit env ino closure cb (fuel + 1) start).run w) := by
  rw [spfsBtreeModifyLit]
  case x_2 => exact hstart
  by_cases hio : env.ioOk w.time start
  case neg =>
    have hio' := Bool.eq_false_iff.mpr hio
    rw [EStateM.run_check_of_false (run_sbBread_failed hio')]
    exact .unread hio'
  rw [EStateM.run_check_of_true (run_sbBread_ok hio)]
  set w₁ := w.addEvent (.bread start true)
  rcases Nat.lt_or_ge 100 (nodeLength (w₁.disk start)) with hover | hcap
  · rw [EStateM.run_bind_of_error (run_bnodeBinFindGte_over start ino hover)]
    exact .stuck hio (.inl hover)
  rcases Nat.eq_zero_or_pos (nodeLength (w₁.disk start)) with hempty | hlen
  · -- no entries: on to the only child
    rw [EStateM.run_bind_of_ok (run_bnodeBinFindGte_empty start ino hempty)]
    simp only
    rw [EStateM.run_bind_of_ok (run_bnodeLength hcap), hempty]
    by_cases hin : childrenOff + 0 * 8 + 8 ≤ w₁.bSize
    · rw [EStateM.run_bind_of_ok (run_bnodeGetChild hcap (Nat.zero_le _) hin),
        EStateM.run_bind_of_ok (run_brelse start w₁)]
      exact .down hio hempty hin
    · rw [EStateM.run_bind_of_error (run_bnodeGetChild_oob hcap (Nat.zero_le _) hin)]
      exact .stuck hio (.inr (.inl ⟨hempty, hin⟩))
  · -- entries: the search hits or leaves the block
    rcases run_bnodeBinFindGte start ino hlen hcap with ⟨j, hhit, hfind⟩ | ⟨hmiss, hfind⟩
    case inr =>
      rw [EStateM.run_bind_of_error hfind]
      exact .stuck hio (.inr (.inr ⟨hlen, fun j hhit => absurd hhit (hmiss j)⟩))
    rw [EStateM.run_bind_of_ok hfind]
    simp only
    rw [EStateM.run_bind_of_ok (run_bentryId hhit.inside), if_pos hhit.eq]
    by_cases hin : probe (nodeLength (w₁.disk start)) j + 8 + 8 ≤ w₁.bSize
    · rw [EStateM.run_bind_of_ok (run_bentryOffset hin),
        EStateM.run_bind_of_ok (run_brelse start w₁)]
      exact .hit hio hlen hcap hhit hin
    · rw [EStateM.run_bind_of_error (run_bentryOffset_oob hin)]
      refine .stuck hio (.inr (.inr ⟨hlen, fun j' hhit' => ?_⟩))
      rw [hhit'.unique hhit]
      exact hin

/-- A walk either comes to nothing, or it visits the record it finds. -/
theorem spfsBtreeModifyLit_cases (env : Env) (ino : ℕ) (closure : γ) (cb : BtreeModifyCb γ)
    (fuel start : ℕ) (w : World) :
    Fruitless closure w ((spfsBtreeModifyLit env ino closure cb fuel start).run w) ∨
    ∃ offset s j w₁, Finds w.disk w.bSize start ino offset s j ∧ OnlyLogs w w₁ ∧
      (spfsBtreeModifyLit env ino closure cb fuel start).run w =
        (btreeVisitEntry env closure cb offset).run w₁ := by
  induction fuel generalizing start w with
  | zero =>
    cases start with
    | zero => exact .inl (.ok (refl_of OnlyLogs w) (by decide))
    | succ start => exact .inl (.error (refl_of OnlyLogs w))
  | succ fuel ih =>
    rcases Nat.eq_zero_or_pos start with rfl | hstart
    · exact .inl (.ok (refl_of OnlyLogs w) (by decide))
    have hne : start ≠ 0 := Nat.ne_of_gt hstart
    have hstep := spfsBtreeModifyLit_step env ino closure cb fuel hne w
    have hleave := leaveNode_onlyLogs w start
    generalize (spfsBtreeModifyLit env ino closure cb (fuel + 1) start).run w = r at hstep ⊢
    cases hstep with
    | unread => exact .inl (.ok ⟨[_], rfl⟩ (by decide))
    | stuck => exact .inl (.error ⟨[_], rfl⟩)
    | down _ hempty =>
      rcases ih (childAt (w.disk start) 0) (leaveNode w start) with
        hnone | ⟨offset, s, j, w₁, hfinds, hw₁, hrun⟩
      · exact .inl (hnone.of_onlyLogs hleave)
      · exact .inr ⟨offset, s, j, w₁, ⟨.down hne hempty hfinds.first, hfinds.le_capacity,
          hfinds.hit, hfinds.offset_eq, hfinds.offset_ne⟩, trans_of OnlyLogs hleave hw₁, hrun⟩
    | @hit j _ hlen hcap hhit =>
      by_cases hoff : offsetAt (w.disk start) (probe (nodeLength (w.disk start)) j) = 0
      · rw [hoff]
        exact .inl (.ok hleave (by decide))
      · exact .inr ⟨_, start, j, _, ⟨.here hne (Nat.ne_of_gt hlen), hcap, hhit, rfl, hoff⟩,
          hleave, rfl⟩

/-- Where all reads succeed, a walk that comes to a node with entries, none of which
the search hits, does not return. -/
theorem spfsBtreeModifyLit_stuck {disk : ℕ → Block} {bSize start s : ℕ}
    (hio : ∀ t s, env.ioOk t s = true) (hfirst : FirstNode disk bSize start s)
    (hmiss : ∀ j, ¬ HitAt bSize (disk s) ino j) {w : World} (hdisk : w.disk = disk)
    (hsize : w.bSize = bSize) (fuel : ℕ) :
    ∃ f w', (spfsBtreeModifyLit env ino closure cb fuel start).run w = .error f w' := by
  induction hfirst generalizing fuel w with
  | @here start hs hlen =>
    obtain ⟨p, rfl⟩ := Nat.exists_eq_succ_of_ne_zero hs
    cases fuel with
    | zero => exact ⟨_, _, rfl⟩
    | succ fuel =>
      have hstep := spfsBtreeModifyLit_step env ino closure cb fuel hs w
      subst hdisk hsize
      generalize (spfsBtreeModifyLit env ino closure cb (fuel + 1) _).run w = r at hstep ⊢
      cases hstep with
      | unread h => simp [hio] at h
      | stuck => exact ⟨_, _, rfl⟩
      | down _ hempty => exact absurd hempty hlen
      | hit _ _ _ hhit => exact absurd hhit (hmiss _)
  | @down start s hs hlen hrest ih =>
    obtain ⟨p, rfl⟩ := Nat.exists_eq_succ_of_ne_zero hs
    cases fuel with
    | zero => exact ⟨_, _, rfl⟩
    | succ fuel =>
      have hstep := spfsBtreeModifyLit_step env ino closure cb fuel hs w
      subst hdisk hsize
      have hnext := ih hmiss (w := leaveNode w (p + 1)) rfl rfl fuel
      generalize (spfsBtreeModifyLit env ino closure cb (fuel + 1) _).run w = r at hstep ⊢
      cases hstep with
      | unread h => simp [hio] at h
      | stuck => exact ⟨_, _, rfl⟩
      | down => exact hnext
      | hit _ hpos => exact absurd hlen (Nat.ne_of_gt hpos)

end Cases

/-! ## Modify and lookup -/

section Calls

variable {γ : Type} {env : Env} {ino : ℕ} {closure closure' : γ} {cb : BtreeModifyCb γ}
  {w w' : World}

theorem afterVisit_onlyLogs {w₁ : World} (h : OnlyLogs w w₁) (offset : ℕ) (stackAtStr : Name)
    (cur : SpfsInode) (dirty : Bool) :
    OnlyLogs (afterVisit w offset stackAtStr cur dirty)
      (afterVisit w₁ offset stackAtStr cur dirty) := by
  obtain ⟨es, rfl⟩ := h
  cases dirty <;> exact ⟨es, rfl⟩

/-- A modification that returns 0 found a record and ran the callback on it, at a time
that the length of the log tells. -/
theorem spfsBtreeModify_zero
    (h : (spfsBtreeModify env ino closure cb).run w = .ok (0, closure') w') :
    ∃ offset s j t cur dirty, Finds w.disk w.bSize w.sbi.tree.start ino offset s j ∧
      recordMagic (w.disk offset) = spookyFsBtreeMagic ∧
      cb closure (parsedInode (env.junk t) (w.disk offset)) = .ok (closure', cur, dirty) ∧
      w'.time = t + (if dirty then 2 else 1) ∧
      OnlyLogs (afterVisit w offset (env.stack t) cur dirty) w' := by
  rw [spfsBtreeModify, EStateM.run_bind_of_ok (EStateM.run_get w)] at h
  rcases spfsBtreeModifyLit_cases env ino closure cb env.fuel w.sbi.tree.start w with
    hnone | ⟨offset, s, j, w₁, hfinds, hlogs, hrun⟩
  · exact absurd rfl (hnone.2 _ _ _ h).1
  rw [hrun] at h
  rcases btreeVisitEntry_cases env closure cb offset w₁ with
    hnone | ⟨-, hmagic, cl, cur, dirty, w₂, hcb, hrun', htime, hlogs'⟩
  · exact absurd rfl (hnone.2 _ _ _ h).1
  rw [hrun'] at h
  cases h
  rw [hlogs.disk] at hmagic hcb
  exact ⟨offset, s, j, w₁.time + 1, cur, dirty, hfinds, hmagic, hcb, htime,
    trans_of OnlyLogs (afterVisit_onlyLogs hlogs _ _ _ _) hlogs'⟩

theorem spfsBtreeModify_empty (hstart : w.sbi.tree.start = 0) :
    (spfsBtreeModify env ino closure cb).run w = .ok (1, closure) w := by
  rw [spfsBtreeModify, EStateM.run_bind_of_ok (EStateM.run_get w), hstart]
  cases env.fuel <;> rfl

/-- A modification that does not return 0 leaves everything but the log. -/
theorem spfsBtreeModify_nonzero
    (h : ∀ cl w', (spfsBtreeModify env ino closure cb).run w ≠ .ok (0, cl) w') :
    Fruitless closure w ((spfsBtreeModify env ino closure cb).run w) := by
  rw [spfsBtreeModify, EStateM.run_bind_of_ok (EStateM.run_get w)] at h ⊢
  rcases spfsBtreeModifyLit_cases env ino closure cb env.fuel w.sbi.tree.start w with
    hnone | ⟨offset, s, j, w₁, hfinds, hlogs, hrun⟩
  · exact hnone
  rw [hrun] at h ⊢
  rcases btreeVisitEntry_cases env closure cb offset w₁ with
    hnone | ⟨-, -, cl, _, _, w₂, -, hrun', -, -⟩
  · exact hnone.of_onlyLogs hlogs
  · exact absurd hrun' (h cl w₂)

/-- A lookup that returns 0 delivers the record it found. -/
theorem spfsBtreeLookup_zero {dest r : SpfsInode}
    (h : (spfsBtreeLookup env ino dest).run w = .ok (0, r) w') :
    ∃ offset s j t, Finds w.disk w.bSize w.sbi.tree.start ino offset s j ∧
      recordMagic (w.disk offset) = spookyFsBtreeMagic ∧
      r = parsedInode (env.junk t) (w.disk offset) ∧ w'.time = t + 1 := by
  obtain ⟨offset, s, j, t, cur, dirty, hfinds, hmagic, hcb, htime, -⟩ := spfsBtreeModify_zero h
  cases hcb
  exact ⟨offset, s, j, t, hfinds, hmagic, rfl, htime⟩

/-- A lookup changes nothing. -/
theorem spfsBtreeLookup_onlyLogs (env : Env) (ino : ℕ) (dest : SpfsInode) :
    EStateM.Within OnlyLogs (spfsBtreeLookup env ino dest) := by
  intro w
  by_cases h : ∃ r w', (spfsBtreeLookup env ino dest).run w = .ok (0, r) w'
  · obtain ⟨r, w', hrun⟩ := h
    obtain ⟨offset, s, j, t, cur, dirty, -, -, hcb, -, hlogs⟩ := spfsBtreeModify_zero hrun
    cases hcb
    rw [hrun]
    exact hlogs
  · exact (spfsBtreeModify_nonzero fun cl w' hrun => h ⟨cl, w', hrun⟩).1

end Calls

end Spfs
