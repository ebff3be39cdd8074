-- SUMMARY: Lookups on arbitrary device content: when a walk comes to an end, and when it ends at a record of the tree.
import Spfs.Btree.Modify

/-!
# Lookups on any content

A lookup does not check what it reads: a node that is too long is a bug, nodes
without entries can form a circle, and the search of a node with entries leaves the
block unless it hits the id. `SafeWalk` describes the device contents on which a
lookup returns, and what it finds then is an entry of the tree.
-/

namespace Spfs

/-! ## The entries of the tree -/

/-- The nodes below a sector: its own and the children of its nodes that are not 0. -/
inductive ReachesNode (disk : ℕ → Block) (start : ℕ) : ℕ → Prop where
  | root : start ≠ 0 → ReachesNode disk start start
  | child {s i : ℕ} : ReachesNode disk start s → nodeLength (disk s) ≤ 100 →
      i ≤ nodeLength (disk s) → childAt (disk s) i ≠ 0 →
      ReachesNode disk start (childAt (disk s) i)

/-- Some node below `start` has an entry of the id that names the block `offset`. -/
def HasEntry (disk : ℕ → Block) (start ino offset : ℕ) : Prop :=
  ∃ s i, ReachesNode disk start s ∧ nodeLength (disk s) ≤ 100 ∧ i < nodeLength (disk s) ∧
    idAt (disk s) (bnodeGetEntry i) = ino ∧ offsetAt (disk s) (bnodeGetEntry i) = offset

/-! ## Lookups that return -/

/-- A visit of the block at time `t` fails, or the block belongs to an entry of the id. -/
def SafeVisit (ioOk : ℕ → ℕ → Bool) (w : World) (ino t offset : ℕ) : Prop :=
  offset = 0 ∨ ioOk t offset = false ∨ recordMagic (w.disk offset) ≠ spookyFsBtreeMagic ∨
    HasEntry w.disk w.sbi.tree.start ino offset

/-- The walk from a node at time `t` ends: at a leaf child, at a block that cannot be
read, or at a node in which the search hits the id, with a safe visit to come. It may
pass through nodes without entries on its way. -/
inductive SafeWalk (ioOk : ℕ → ℕ → Bool) (w : World) (ino : ℕ) : ℕ → ℕ → Prop where
  | leaf {t : ℕ} : SafeWalk ioOk w ino t 0
  | unread {t s : ℕ} : ioOk t s = false → SafeWalk ioOk w ino t s
  | down {t s : ℕ} : nodeLength (w.disk s) = 0 → childrenOff + 8 ≤ w.bSize →
      SafeWalk ioOk w ino (t + 2) (childAt (w.disk s) 0) → SafeWalk ioOk w ino t s
  | hit {t s j : ℕ} : 1 ≤ nodeLength (w.disk s) → nodeLength (w.disk s) ≤ 100 →
      HitAt w.bSize (w.disk s) ino j → probe (nodeLength (w.disk s)) j + 16 ≤ w.bSize →
      SafeVisit ioOk w ino (t + 2) (offsetAt (w.disk s) (probe (nodeLength (w.disk s)) j)) →
      SafeWalk ioOk w ino t s

/-- A result of 0 comes with the record of the block read last, and an entry of the id
names that block. -/
def CopiesRecord (env : Env) (w : World) (ino : ℕ) (r : SpfsInode) (w' : World) : Prop :=
  ∃ offset rest t, w'.log = .brelse offset :: .bread offset true :: rest ∧
    HasEntry w.disk w.sbi.tree.start ino offset ∧
    recordMagic (w.disk offset) = spookyFsBtreeMagic ∧
    r = parsedInode (env.junk t) (w.disk offset)

/-- The lookup returns, with 0 only for a record of the tree. -/
def LookupSafe (env : Env) (w : World) (ino : ℕ) (dest : SpfsInode) : Prop :=
  ∃ res r w', (spfsBtreeLookup env ino dest).run w = .ok (res, r) w' ∧
    (res = 0 → CopiesRecord env w ino r w')

section Safety

variable {env : Env} {ino : ℕ} {dest : SpfsInode} {w : World}

/-- A walk that returns was safe. The induction follows the walk from node to node. -/
theorem safeWalk_of_returns (env : Env) {fuel start : ℕ} {res : ℤ} {r : SpfsInode}
    {w₁ w' : World} (hw : OnlyLogs w w₁)
    (hrun : (spfsBtreeModifyLit env ino dest spfsBtreeLookupCb fuel start).run w₁ =
      .ok (res, r) w')
    (hzero : res = 0 → CopiesRecord env w ino r w') :
    SafeWalk env.ioOk w ino w₁.time start := by
  induction fuel generalizing start w₁ with
  | zero =>
    cases start with
    | zero => exact .leaf
    | succ start => cases hrun
  | succ fuel ih =>
    rcases Nat.eq_zero_or_pos start with rfl | hstart
    · exact .leaf
    have hstep := spfsBtreeModifyLit_step env ino dest spfsBtreeLookupCb fuel
      (Nat.ne_of_gt hstart) w₁
    rw [hrun] at hstep
    generalize hres : (EStateM.Result.ok (res, r) w' : EStateM.Result Fault World _) = result
      at hstep
    cases hstep with
    | unread hio => exact .unread hio
    | stuck => cases hres
    | down hio hempty hfits =>
      rw [hw.disk] at hempty hres
      rw [hw.bSize] at hfits
      exact .down hempty hfits
        (ih (trans_of OnlyLogs hw (leaveNode_onlyLogs _ _)) hres.symm)
    | hit hio hlen hcap hhit hin =>
      rw [hw.disk] at hlen hcap hhit hin hres
      rw [hw.bSize] at hhit hin
      refine .hit hlen hcap hhit hin ?_
      set offset := offsetAt (w.disk start) (probe (nodeLength (w.disk start)) _)
      have hdisk : (leaveNode w₁ start).disk = w.disk := hw.disk
      have hvisit := btreeVisitEntry_visit env dest spfsBtreeLookupCb offset (leaveNode w₁ start)
      rw [← hres] at hvisit
      generalize hres' : (EStateM.Result.ok (res, r) w' : EStateM.Result Fault World _) = result'
        at hvisit
      cases hvisit with
      | none hnone => exact .inl hnone
      | unread _ hio => exact .inr (.inl hio)
      | malformed _ _ hmagic =>
        rw [hdisk] at hmagic
        exact .inr (.inr (.inl hmagic))
      | fault => cases hres'
      | clean hne hio hmagic hcb =>
        cases hres'
        obtain ⟨offset', rest, t, hlog, hentry, -⟩ := hzero rfl
        rw [World.addEvent_log, List.cons.injEq, Event.brelse.injEq] at hlog
        rw [hlog.1]
        exact .inr (.inr (.inr hentry))
      | dirty _ _ _ hcb => cases hcb

/-- A safe visit returns. -/
theorem btreeVisitEntry_safe {offset : ℕ} {w₁ : World} (hw : OnlyLogs w w₁)
    (hsafe : SafeVisit env.ioOk w ino w₁.time offset) :
    ∃ res r w', (btreeVisitEntry env dest spfsBtreeLookupCb offset).run w₁ = .ok (res, r) w' ∧
      (res = 0 → CopiesRecord env w ino r w') := by
  have hvisit := btreeVisitEntry_visit env dest spfsBtreeLookupCb offset w₁
  generalize (btreeVisitEntry env dest spfsBtreeLookupCb offset).run w₁ = result at hvisit ⊢
  cases hvisit with
  | none => exact ⟨_, _, _, rfl, fun h => absurd h (by decide)⟩
  | unread => exact ⟨_, _, _, rfl, fun h => absurd h (by decide)⟩
  | malformed => exact ⟨_, _, _, rfl, fun h => absurd h (by decide)⟩
  | fault _ _ _ hcb => cases hcb
  | clean hne hio hmagic hcb =>
    cases hcb
    rw [hw.disk] at hmagic
    refine ⟨_, _, _, rfl, fun _ => ⟨offset, _, w₁.time + 1, rfl, ?_, hmagic, by rw [hw.disk]⟩⟩
    rcases hsafe with h | h | h | h
    · exact absurd h hne
    · rw [h] at hio
      cases hio
    · exact absurd hmagic h
    · exact h
  | dirty _ _ _ hcb => cases hcb

/-- A safe walk returns with enough fuel, from every state that agrees on the content
and the time. -/
theorem SafeWalk.returns {ioOk : ℕ → ℕ → Bool} {t start : ℕ} (h : SafeWalk ioOk w ino t start)
    (dest : SpfsInode) :
    ∃ fuel, ∀ (env : Env) w₁, env.ioOk = ioOk → OnlyLogs w w₁ → w₁.time = t → ∃ res r w',
      (spfsBtreeModifyLit env ino dest spfsBtreeLookupCb fuel start).run w₁ = .ok (res, r) w' ∧
      (res = 0 → CopiesRecord env w ino r w') := by
  have hleaf : ∀ (env : Env) fuel (w₁ : World), ∃ res r w',
      (spfsBtreeModifyLit env ino dest spfsBtreeLookupCb fuel 0).run w₁ = .ok (res, r) w' ∧
      (res = 0 → CopiesRecord env w ino r w') := by
    intro env fuel w₁
    refine ⟨1, dest, w₁, ?_, by simp⟩
    cases fuel <;> rfl
  induction h with
  | leaf => exact ⟨0, fun env w₁ _ _ _ => hleaf env 0 w₁⟩
  | @unread t s hio =>
    refine ⟨1, fun env w₁ hio' hw ht => ?_⟩
    rcases Nat.eq_zero_or_pos s with rfl | hs
    · exact hleaf env 1 w₁
    have hstep := spfsBtreeModifyLit_step env ino dest spfsBtreeLookupCb 0 (Nat.ne_of_gt hs) w₁
    rw [← ht, ← hio'] at hio
    generalize (spfsBtreeModifyLit env ino dest spfsBtreeLookupCb (0 + 1) s).run w₁ = result
      at hstep ⊢
    cases hstep with
    | unread => exact ⟨_, _, _, rfl, fun h => absurd h (by decide)⟩
    | stuck h => simp [hio] at h
    | down h => simp [hio] at h
    | hit h => simp [hio] at h
  | @down t s hempty hfits _ ih =>
    obtain ⟨fuel, ih⟩ := ih
    refine ⟨fuel + 1, fun env w₁ hio' hw ht => ?_⟩
    rcases Nat.eq_zero_or_pos s with rfl | hs
    · exact hleaf env _ w₁
    have hstep := spfsBtreeModifyLit_step env ino dest spfsBtreeLookupCb fuel (Nat.ne_of_gt hs) w₁
    rw [← hw.disk] at hempty ih
    rw [← hw.bSize] at hfits
    generalize (spfsBtreeModifyLit env ino dest spfsBtreeLookupCb (fuel + 1) s).run w₁ = result
      at hstep ⊢
    cases hstep with
    | unread => exact ⟨_, _, _, rfl, fun h => absurd h (by decide)⟩
    | stuck _ h =>
      rcases h with h | ⟨-, h⟩ | ⟨h, -⟩
      · omega
      · exact absurd hfits h
      · omega
    | down => exact ih env _ hio' (trans_of OnlyLogs hw (leaveNode_onlyLogs _ _)) (by rw [leaveNode_time, ht])
    | hit _ h => omega
  | @hit t s j hlen hcap hhit hin hvisit =>
    refine ⟨1, fun env w₁ hio' hw ht => ?_⟩
    rcases Nat.eq_zero_or_pos s with rfl | hs
    · exact hleaf env _ w₁
    have hstep := spfsBtreeModifyLit_step env ino dest spfsBtreeLookupCb 0 (Nat.ne_of_gt hs) w₁
    generalize (spfsBtreeModifyLit env ino dest spfsBtreeLookupCb (0 + 1) s).run w₁ = result
      at hstep ⊢
    cases hstep with
    | unread => exact ⟨_, _, _, rfl, fun h => absurd h (by decide)⟩
    | stuck _ h =>
      rw [hw.disk, hw.bSize] at h
      rcases h with h | ⟨h, -⟩ | ⟨-, h⟩
      · omega
      · omega
      · exact absurd hin (h j hhit)
    | down _ h =>
      rw [hw.disk] at h
      omega
    | @hit j' _ _ _ hhit' =>
      rw [hw.disk, hw.bSize] at hhit'
      obtain rfl := hhit'.unique hhit
      rw [hw.disk]
      exact btreeVisitEntry_safe (trans_of OnlyLogs hw (leaveNode_onlyLogs w₁ s))
        (by rw [leaveNode_time, ht, hio']; exact hvisit)

/-- A lookup is safe exactly when the walk from the root is: it does not run into a
node that is too long or out of a block or in a circle, and the entry that the search
hits, when it names a record, belongs to the tree. -/
theorem spfsBtreeLookup_safe_iff (env : Env) (w : World) (ino : ℕ) (dest : SpfsInode) :
    (∃ fuel, LookupSafe { env with fuel := fuel } w ino dest) ↔
      SafeWalk env.ioOk w ino w.time w.sbi.tree.start := by
  constructor
  · rintro ⟨fuel, res, r, w', hrun, hzero⟩
    rw [spfsBtreeLookup, spfsBtreeModify, EStateM.run_bind_of_ok (EStateM.run_get w)] at hrun
    exact safeWalk_of_returns { env with fuel := fuel } (refl_of OnlyLogs w) hrun hzero
  · intro h
    obtain ⟨fuel, hreturns⟩ := h.returns dest
    obtain ⟨res, r, w', hrun, hzero⟩ :=
      hreturns { env with fuel := fuel } w rfl (refl_of OnlyLogs w) rfl
    refine ⟨fuel, res, r, w', ?_, hzero⟩
    rw [spfsBtreeLookup, spfsBtreeModify, EStateM.run_bind_of_ok (EStateM.run_get w)]
    exact hrun

/-- A tree of one node without entries that is its own child. -/
def circleWorld : World := (freshWorld.setBlock 7 (nodeBlock [] [7])).setTreeStart 7

/-- No lookup gets out of the circle. -/
theorem not_lookupSafe_circle :
    ¬ ∃ fuel, LookupSafe { Env.calm 0 with fuel := fuel } circleWorld 5 spfsInodeInitOnce := by
  have hempty : nodeLength (circleWorld.disk 7) = 0 := by decide
  have hself : childAt (circleWorld.disk 7) 0 = 7 := by decide
  have hcircle : ∀ t s, SafeWalk (Env.calm 0).ioOk circleWorld 5 t s → s ≠ 7 := by
    intro t s h
    induction h with
    | leaf => decide
    | unread h => cases h
    | down _ _ _ ih =>
      rintro rfl
      exact ih hself
    | hit h =>
      rintro rfl
      omega
  rintro ⟨fuel, res, r, w', hrun, hzero⟩
  rw [spfsBtreeLookup, spfsBtreeModify, EStateM.run_bind_of_ok (EStateM.run_get _)] at hrun
  exact hcircle _ _ (safeWalk_of_returns { Env.calm 0 with fuel := fuel }
    (refl_of OnlyLogs circleWorld) hrun hzero) rfl

end Safety

end Spfs
