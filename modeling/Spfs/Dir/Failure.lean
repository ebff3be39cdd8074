-- SUMMARY: When spfs_add_child records the child, or else reports that and leaves the directory as it was.
import Spfs.Dir.AddChild
import Spfs.Mkfs

/-!
# Failing to add a child

The call counts the child before it looks for a place, so a call that fails leaves a count
that is too large. It ignores that a slot is outside of the block, so a call that returns 0
need not have recorded the child.
-/

namespace Spfs

/-- The ids that a traversal of the directory visits. -/
def Lists (w : World) (p : ℕ) (ids : List ℕ) : Prop :=
  ∃ i blocks, w.inodes p = some i ∧ DirLists w.bSize w.disk i.start blocks ∧ listedIds blocks = ids

/-- A caller sees no difference in the directory. -/
structure DirUnchanged (p : ℕ) (w w' : World) : Prop where
  capacity : (w'.inodes p).map SpfsInode.capacity = (w.inodes p).map SpfsInode.capacity
  start : (w'.inodes p).map SpfsInode.start = (w.inodes p).map SpfsInode.start
  lists : ∀ ids, Lists w' p ids ↔ Lists w p ids

/-- The id stands in the slot of the block, which is inside of it. -/
structure HoldsChild (bSize : ℕ) (b : Block) (idx child : ℕ) : Prop where
  fits : 12 + idx * 8 + 8 ≤ bSize
  eq : beDecode (b.read (12 + idx * 8) 4) = child % 2 ^ 32

/-- The child went to the next slot of a block, or to the first slot of a new start. -/
inductive Recorded (p child : ℕ) (w w' : World) : Prop where
  | slot (s : ℕ) (block : DirBlock) (before : DirAt (w.disk s) block)
      (after : DirAt (w'.disk s) { block with children := (block.children + 1) % 2 ^ 32 })
      (holds : HoldsChild w'.bSize (w'.disk s) block.children child)
  | fresh (s : ℕ) (j : SpfsInode) (start : w'.inodes p = some j ∧ j.start = s)
      (after : DirAt (w'.disk s) ⟨0, 1⟩) (holds : HoldsChild w'.bSize (w'.disk s) 0 child)

/-- The call returns; it does not return 0 unless it recorded the child, and otherwise it
changed nothing. -/
def ReportsFailure (p child : ℕ) (w : World) (r : EStateM.Result Fault World ℤ) : Prop :=
  ∃ res w', r = .ok res w' ∧ (¬ Recorded p child w w' → res ≠ 0) ∧ (res ≠ 0 → DirUnchanged p w w')

/-- There is a place for the child, and it is inside of its block. -/
def HasPlace (env : Env) (w : World) (i : SpfsInode) : Prop :=
  match placeIn env w i with
  | .slot _ block => 12 + block.children * 8 + 8 ≤ w.bSize
  | .fresh _ => True
  | _ => False

section Slots

variable {bSize s idx child : ℕ} {block : DirBlock} {b : Block}

theorem next_ne (n : ℕ) : (n + 1) % 2 ^ 32 ≠ n := by omega

theorem holdsChild_withChild (h : 12 + block.children * 8 + 8 ≤ bSize) (child : ℕ) :
    HoldsChild bSize (withChild bSize block child b) block.children child where
  fits := h
  eq := by
    rw [withChild, read_withDir (by omega), withSlot, if_pos h,
      Block.read_write_same (length_beEncode 4 child), beDecode_beEncode]
    rfl

end Slots

section Calls

variable {env : Env} {p child : ℕ} {w : World} {i : SpfsInode}

/-- A start that is not full is the place, unless it cannot be read. -/
theorem placeIn_start {block : DirBlock} (hs : i.start ≠ 0) (hdir : DirAt (w.disk i.start) block)
    (hfull : spfsDirIsFull block = false) {s : ℕ} {block' : DirBlock}
    (h : placeIn env w i = .slot s block') : s = i.start := by
  rcases placeIn_of_start env hs hdir with hp | hp | ⟨-, hp⟩ | ⟨hfull', -⟩
  · cases hp.symm.trans h
  · cases hp.symm.trans h
  · cases hp.symm.trans h
    rfl
  · cases hfull.symm.trans hfull'

/-- A slot that is not inside of the block does not record anything. -/
theorem not_recorded_of_unfit {s : ℕ} {block : DirBlock} {w' : World}
    (hplace : placeIn env w i = .slot s block)
    (hdir : DirAt (w.disk s) block) (hfit : 12 + block.children * 8 ≤ w.bSize)
    (hout : w.bSize < 12 + block.children * 8 + 8) (hbSize : w'.bSize = w.bSize)
    (hdisk : w'.disk = Function.update w.disk s (withChild w.bSize block child (w.disk s)))
    (hp' : (w'.inodes p).map SpfsInode.start = some i.start) : ¬ Recorded p child w w' := by
  have hle := w.le_bSize
  have hstart := start_ne_of_slot hplace
  have hafter : DirAt (w'.disk s) { block with children := (block.children + 1) % 2 ^ 32 } := by
    rw [hdisk, Function.update_self]
    exact dirAt_withChild hdir _ _
  have hother {s' : ℕ} (hne : s' ≠ s) : w'.disk s' = w.disk s' := by
    rw [hdisk, Function.update_of_ne hne]
  intro hrec
  cases hrec with
  | slot s' block' before after holds =>
    by_cases hs : s' = s
    · subst hs
      obtain rfl := before.unique hdir
      have hin := holds.fits
      rw [hbSize] at hin
      omega
    · rw [hother hs] at after
      have hcount := congrArg DirBlock.children (before.unique after)
      exact next_ne _ hcount.symm
  | fresh s' j start after holds =>
    obtain ⟨hj, rfl⟩ := start
    have hsame : j.start = i.start := by
      rw [hj] at hp'
      exact Option.some.inj hp'
    by_cases hs : j.start = s
    · rw [hs] at after
      have hcount : (block.children + 1) % 2 ^ 32 = 1 := congrArg DirBlock.children (hafter.unique after)
      have hlt := w.bSize_lt
      omega
    · rw [hother hs, hsame] at after
      have hs' := placeIn_start hstart after rfl hplace
      exact hs (hsame.trans hs'.symm)

/-- A result other than 0 comes with a count that was raised. -/
theorem not_dirUnchanged {j : SpfsInode} {disk : ℕ → Block} {fl : FreeList} {w' : World}
    (hp : w.inodes p = some i) (hstep : DirStep p j disk fl w w')
    (hcap : j.capacity = (i.capacity + 1) % 2 ^ 32) : ¬ DirUnchanged p w w' := by
  intro hsame
  have hcapacity := hsame.capacity
  have hj : w'.inodes p = some j := by
    rw [hstep.inodes]
    exact Function.update_self _ _ _
  rw [hj, hp, Option.map_some, Option.map_some] at hcapacity
  exact next_ne _ (hcap.symm.trans (Option.some.inj hcapacity))

/-- The call reports a failure and changes nothing, or records the child, exactly when there
is a place for the child. -/
theorem spfsAddChild_reports_iff (hp : w.inodes p = some i) (hlock : i.lock = false) :
    ReportsFailure p child w ((spfsAddChild env p child).run w) ↔ HasPlace env w i := by
  have hcall := spfsAddChild_call env child hp hlock
  have hle := w.le_bSize
  rw [HasPlace]
  generalize hplace : placeIn env w i = place at hcall
  generalize (spfsAddChild env p child).run w = r at hcall
  have hfails {res : ℤ} {j : SpfsInode} {disk : ℕ → Block} {fl : FreeList} {w' : World}
      (hres : res ≠ 0) (hstep : DirStep p j disk fl w w')
      (hcap : j.capacity = (i.capacity + 1) % 2 ^ 32) : ¬ ReportsFailure p child w (.ok res w') := by
    rintro ⟨_, _, ⟨⟩, -, hsame⟩
    exact not_dirUnchanged hp hstep hcap (hsame hres)
  cases hcall with
  | @slot s block w' hs hdir hfull hfit hstep hbal =>
    have hstart : (w'.inodes p).map SpfsInode.start = some i.start := by
      rw [hstep.inodes, Function.update_self]
      rfl
    constructor
    · rintro ⟨_, _, ⟨⟩, hrec, -⟩
      by_contra hunfit
      exact hrec (not_recorded_of_unfit hplace hdir hfit (Nat.lt_of_not_le hunfit) hstep.bSize
        hstep.disk hstart) rfl
    · intro hfits
      refine ⟨0, w', rfl, fun hnot => absurd ?_ hnot, fun hne => absurd rfl hne⟩
      refine .slot s block hdir ?_ ?_
      · rw [hstep.disk, Function.update_self]
        exact dirAt_withChild hdir _ _
      · rw [hstep.bSize, hstep.disk, Function.update_self]
        exact holdsChild_withChild hfits child
  | bug hout =>
    constructor
    · rintro ⟨_, _, ⟨⟩, -⟩
    · intro hfits
      exact absurd hfits (by dsimp only; omega)
  | @fresh s w' hs hsel hstep hbal =>
    have hdir : DirAt (withDir ⟨0, 0⟩ (w.disk s)) ⟨0, 0⟩ :=
      dirAt_withDir _ (Nat.two_pow_pos 32) (Nat.two_pow_pos 32)
    have hfits : 12 + (⟨0, 0⟩ : DirBlock).children * 8 + 8 ≤ w.bSize := by
      show 12 + 0 * 8 + 8 ≤ w.bSize
      omega
    refine iff_of_true ⟨0, w', rfl, fun hnot => absurd ?_ hnot, fun hne => absurd rfl hne⟩ trivial
    refine .fresh s _ ⟨by rw [hstep.inodes]; exact Function.update_self _ _ _, rfl⟩ ?_ ?_
    · rw [hstep.disk, Function.update_self]
      exact dirAt_withChild hdir _ _
    · rw [hstep.bSize, hstep.disk, Function.update_self]
      exact holdsChild_withChild hfits child
  | unread hstep hbal => exact iff_of_false (hfails (by decide) hstep rfl) id
  | garbled hstep htakes => exact iff_of_false (hfails (by decide) hstep rfl) id
  | noBlock hstep hbal => exact iff_of_false (hfails (by decide) hstep rfl) id
  | spent =>
    refine iff_of_false ?_ id
    rintro ⟨_, _, ⟨⟩, -⟩

end Calls

/-! ## A device without free blocks -/

/-- An empty directory on a device that has no free blocks. -/
def noBlockWorld : World := (freshWorld.setFreeList ⟨0, []⟩).setInode 1 (plainDir 1)

theorem spfsAddChild_reports_iff_noBlock :
    ReportsFailure 1 5 noBlockWorld ((spfsAddChild (.calm 9) 1 5).run noBlockWorld) ↔
      HasPlace (.calm 9) noBlockWorld (plainDir 1) :=
  spfsAddChild_reports_iff rfl rfl

/-- The call fails for the want of a block, and the directory counts a child after it. -/
theorem not_reportsFailure_noBlock :
    noBlockWorld.inodes 1 = some (plainDir 1) ∧ (Env.calm 9).Grants ∧
      ¬ ReportsFailure 1 5 noBlockWorld ((spfsAddChild (.calm 9) 1 5).run noBlockWorld) := by
  have hp : noBlockWorld.inodes 1 = some (plainDir 1) := rfl
  refine ⟨hp, Env.calm_grants 9, ?_⟩
  have hcall := spfsAddChild_call (.calm 9) 5 hp rfl
  have hplace : placeIn (.calm 9) noBlockWorld (plainDir 1) = .noBlock := rfl
  rw [hplace] at hcall
  generalize (spfsAddChild (.calm 9) 1 5).run noBlockWorld = r at hcall
  cases hcall with
  | noBlock hstep hbal =>
    rintro ⟨_, _, ⟨⟩, -, hsame⟩
    exact not_dirUnchanged hp hstep rfl (hsame (by decide))

end Spfs
