-- SUMMARY: What spfs_btree_modify answers in every environment and on every device, and that it gives every buffer back.
import Spfs.Balance
import Spfs.Btree.Modify

/-!
# Answers of the tree

A walk that returns has ended in one of five ways, which the blocks and the reads that fail
decide (`TreeAnswers`). In each of them it has released what it read
(`spfsBtreeModify_answers`).
-/

namespace Spfs

/-- What a walk for an inode ends in; the record that it found with the time of its read. -/
inductive Answer where
  | absent
  | broken
  | unread
  | garbled
  | found (offset t : ℕ)
deriving DecidableEq, Repr

/-- The result of `spfs_btree_modify`. -/
def Answer.code : Answer → ℤ
  | .absent => 1
  | .broken => - EIO
  | .unread => 10
  | .garbled => -EINVAL
  | .found _ _ => 0

/-- What the visit of an entry that points to `offset` ends in, at the time `t`. -/
def recordAnswer (env : Env) (disk : ℕ → Block) (t offset : ℕ) : Answer :=
  if offset = 0 then .absent
  else if env.ioOk t offset = false then .unread
  else if recordMagic (disk offset) ≠ spookyFsBtreeMagic then .garbled
  else .found offset t

/-- What the walk from the node at a sector on ends in, when it begins at the time. -/
inductive TreeAnswers (env : Env) (bSize : ℕ) (disk : ℕ → Block) (ino : ℕ) : ℕ → ℕ → Answer → Prop
  | leaf {t : ℕ} : TreeAnswers env bSize disk ino t 0 .absent
  | broken {t s : ℕ} (hs : s ≠ 0) (hio : env.ioOk t s = false) :
      TreeAnswers env bSize disk ino t s .broken
  | down {t s : ℕ} {a : Answer} (hs : s ≠ 0) (hio : env.ioOk t s = true)
      (hempty : nodeLength (disk s) = 0)
      (hnext : TreeAnswers env bSize disk ino (t + 2) (childAt (disk s) 0) a) :
      TreeAnswers env bSize disk ino t s a
  | hit {t s j : ℕ} (hs : s ≠ 0) (hio : env.ioOk t s = true) (hlen : 1 ≤ nodeLength (disk s))
      (hhit : HitAt bSize (disk s) ino j) :
      TreeAnswers env bSize disk ino t s
        (recordAnswer env disk (t + 2) (offsetAt (disk s) (probe (nodeLength (disk s)) j)))

/-- The answer is determined. -/
theorem TreeAnswers.unique {env : Env} {bSize ino t s : ℕ} {disk : ℕ → Block} {a a' : Answer}
    (h : TreeAnswers env bSize disk ino t s a) (h' : TreeAnswers env bSize disk ino t s a') : a = a' := by
  induction h with
  | leaf =>
    cases h' with
    | leaf => rfl
    | broken hs => exact absurd rfl hs
    | down hs => exact absurd rfl hs
    | hit hs => exact absurd rfl hs
  | broken hs hio =>
    cases h' with
    | leaf => exact absurd rfl hs
    | broken => rfl
    | down _ hio' => simp [hio] at hio'
    | hit _ hio' => simp [hio] at hio'
  | down hs hio hempty _ ih =>
    cases h' with
    | leaf => exact absurd rfl hs
    | broken _ hio' => simp [hio] at hio'
    | down _ _ _ hnext => exact ih hnext
    | hit _ _ hlen => omega
  | hit hs hio hlen hhit =>
    cases h' with
    | leaf => exact absurd rfl hs
    | broken _ hio' => simp [hio] at hio'
    | down _ _ hempty => omega
    | hit _ _ _ hhit' => rw [hhit.unique hhit']

section Calls

variable {γ : Type} {env : Env} {ino : ℕ} {closure closure' : γ} {cb : BtreeModifyCb γ}
  {w w' : World}

/-- What a call leaves that ended in the answer. -/
inductive Answered (env : Env) (closure : γ) (cb : BtreeModifyCb γ) (w : World) :
    Answer → γ → World → Prop
  | nothing {a : Answer} {w' : World} (ha : a.code ≠ 0) (hlogs : OnlyLogs w w') :
      Answered env closure cb w a closure w'
  | clean {offset t : ℕ} {closure' : γ} {cur : SpfsInode} {w' : World}
      (hcb : cb closure (parsedInode (env.junk (t + 1)) (w.disk offset)) = .ok (closure', cur, false))
      (hlogs : OnlyLogs w w') (htime : w'.time = t + 2) :
      Answered env closure cb w (.found offset t) closure' w'
  | dirty {offset t : ℕ} {closure' : γ} {cur : SpfsInode} {w' : World}
      (hcb : cb closure (parsedInode (env.junk (t + 1)) (w.disk offset)) = .ok (closure', cur, true))
      (hlogs : OnlyLogs (w.setBlock offset (withRecord (env.stack (t + 1)) cur (w.disk offset))) w')
      (htime : w'.time = t + 3) :
      Answered env closure cb w (.found offset t) closure' w'

theorem Answered.of_onlyLogs {w₁ : World} {a : Answer} (h : Answered env closure cb w₁ a closure' w')
    (hw : OnlyLogs w w₁) : Answered env closure cb w a closure' w' := by
  cases h with
  | nothing ha hlogs => exact .nothing ha (trans_of OnlyLogs hw hlogs)
  | clean hcb hlogs htime =>
    rw [hw.disk] at hcb
    exact .clean hcb (trans_of OnlyLogs hw hlogs) htime
  | dirty hcb hlogs htime =>
    rw [hw.disk] at hcb hlogs
    exact .dirty hcb (trans_of OnlyLogs (hw.setBlock _ _) hlogs) htime

/-- A block that was written does not show in the log. -/
theorem balanced_visit (w w₁ : World) (offset : ℕ) (es : List Event)
    (hes : ∀ s, net s es = 0) (hlog : w₁.log = es ++ Event.bread offset true :: w.log) :
    Balanced w (w₁.addEvent (.brelse offset)) := by
  have hmid : Balanced (w.addEvent (.bread offset true)) w₁ := ⟨es, hlog, hes⟩
  exact hmid.of_bread_brelse

theorem btreeVisitEntry_answers {offset : ℕ} {res : ℤ}
    (h : (btreeVisitEntry env closure cb offset).run w = .ok (res, closure') w') :
    res = (recordAnswer env w.disk w.time offset).code ∧
      Answered env closure cb w (recordAnswer env w.disk w.time offset) closure' w' ∧ Balanced w w' := by
  have hvisit := btreeVisitEntry_visit env closure cb offset w
  rw [h] at hvisit
  cases hvisit with
  | none hoff =>
    rw [recordAnswer, if_pos hoff]
    exact ⟨rfl, .nothing (by decide) (refl_of OnlyLogs w), refl_of Balanced w⟩
  | unread hoff hio =>
    rw [recordAnswer, if_neg hoff, if_pos hio]
    exact ⟨rfl, .nothing (by decide) ⟨[_], rfl⟩, Takes.event (fun _ => rfl) w⟩
  | malformed hoff hio hmagic =>
    rw [recordAnswer, if_neg hoff, if_neg (by simp [hio]), if_pos hmagic]
    exact ⟨rfl, .nothing (by decide) ⟨[_, _], rfl⟩, balanced_visit w _ offset [] net_nil rfl⟩
  | clean hoff hio hmagic hcb =>
    rw [recordAnswer, if_neg hoff, if_neg (by simp [hio]), if_neg (not_not.mpr hmagic)]
    exact ⟨rfl, .clean hcb ⟨[_, _], rfl⟩ rfl, balanced_visit w _ offset [] net_nil rfl⟩
  | dirty hoff hio hmagic hcb =>
    rw [recordAnswer, if_neg hoff, if_neg (by simp [hio]), if_neg (not_not.mpr hmagic)]
    exact ⟨rfl, .dirty hcb ⟨[_, _, _], rfl⟩ rfl,
      balanced_visit w _ offset [.dirty offset] (fun _ => rfl) rfl⟩

theorem balanced_leaveNode (w : World) (s : ℕ) : Balanced w (leaveNode w s) :=
  balanced_visit w _ s [] net_nil rfl

theorem spfsBtreeModifyLit_answers {fuel start : ℕ} {res : ℤ}
    (h : (spfsBtreeModifyLit env ino closure cb fuel start).run w = .ok (res, closure') w') :
    ∃ a, TreeAnswers env w.bSize w.disk ino w.time start a ∧ res = a.code ∧
      Answered env closure cb w a closure' w' ∧ Balanced w w' := by
  induction fuel generalizing start w with
  | zero =>
    cases start with
    | zero =>
      cases h
      exact ⟨.absent, .leaf, rfl, .nothing (by decide) (refl_of OnlyLogs _), refl_of Balanced _⟩
    | succ start => cases h
  | succ fuel ih =>
    by_cases hs : start = 0
    · subst hs
      cases h
      exact ⟨.absent, .leaf, rfl, .nothing (by decide) (refl_of OnlyLogs _), refl_of Balanced _⟩
    have hstep := spfsBtreeModifyLit_step env ino closure cb fuel hs w
    have hleave := leaveNode_onlyLogs w start
    generalize (spfsBtreeModifyLit env ino closure cb (fuel + 1) start).run w = r at h hstep
    cases hstep with
    | unread hio =>
      cases h
      exact ⟨.broken, .broken hs hio, rfl, .nothing (by decide) ⟨[_], rfl⟩,
        Takes.event (fun _ => rfl) w⟩
    | stuck => cases h
    | down hio hempty =>
      obtain ⟨a, hanswers, hres, hdone, hbal⟩ := ih h
      rw [hleave.bSize, hleave.disk] at hanswers
      exact ⟨a, .down hs hio hempty hanswers, hres, hdone.of_onlyLogs hleave,
        (balanced_leaveNode w start).trans hbal⟩
    | hit hio hlen _ hhit =>
      obtain ⟨hres, hdone, hbal⟩ := btreeVisitEntry_answers h
      rw [hleave.disk] at hres hdone
      exact ⟨_, .hit hs hio hlen hhit, hres, hdone.of_onlyLogs hleave,
        (balanced_leaveNode w start).trans hbal⟩

/-- A call that returns answers what the tree says, and is balanced. -/
theorem spfsBtreeModify_answers {res : ℤ}
    (h : (spfsBtreeModify env ino closure cb).run w = .ok (res, closure') w') :
    ∃ a, TreeAnswers env w.bSize w.disk ino w.time w.sbi.tree.start a ∧ res = a.code ∧
      Answered env closure cb w a closure' w' ∧ Balanced w w' := by
  rw [spfsBtreeModify, EStateM.run_bind_of_ok (EStateM.run_get w)] at h
  exact spfsBtreeModifyLit_answers h

end Calls

end Spfs
