-- SUMMARY: btree.c: the split of a full node, and why neither it nor the insertion into a node with room does its work.
import Spfs.Btree.NodeInsert

/-!
# Splitting a node

`btree_fixup` moves the entries above the median one by one into a new node. At
least two entries of a full node lie above any median, the second of them meets a
node that already has an entry, and an insertion into such a node does not return.
A node with room takes in the bubble only when it is empty, and then the bubble
stays active.
-/

namespace Spfs

open EStateM (run_bind_of_ok run_bind_of_error run_bind_eq_ok)

/-! ## The median -/

/-- The ids of the table of a full node increase. -/
def IdsIncrease (b : Block) : Prop :=
  ∀ i j, i < j → j < nodeLength b → idAt b (bnodeGetEntry i) < idAt b (bnodeGetEntry j)

/-- A pointer that reads as the id `pid` whatever is stored in block `to_`, and that is
no place in the table of the node. -/
structure IsPivot (from_ to_ : ℕ) (bubble : BtreeBubble) (pid : ℕ) (w : World)
    (pivot : EntryPtr) : Prop where
  outside : pivot.indexOf from_ = bnodeCapacity
  id : ∀ b, (pivot.id bubble).run (w.setBlock to_ b) = .ok pid (w.setBlock to_ b)

/-- What `bnode_median` can return: the bubble or one of the two middle entries, never
above the upper one of them. -/
inductive IsMedian (bSize s : ℕ) (b : Block) (bubble : BtreeBubble) : EntryPtr → Prop where
  | bubble : be32ToCpu bubble.entry.id ≤ idAt b (bnodeGetEntry 50) → IsMedian bSize s b bubble .bubble
  | node {i : ℕ} : 49 ≤ i → i ≤ 50 → bnodeGetEntry i + 8 ≤ bSize →
      IsMedian bSize s b bubble (.node s (bnodeGetEntry i))

section Median

variable {s to_ : ℕ} {bubble : BtreeBubble} {med : EntryPtr} {w w' : World}

theorem run_bnodeIsFull_of (hlen : nodeLength (w.disk s) = 100) :
    (bnodeIsFull s).run w = .ok true w := by
  rw [bnodeIsFull, run_bind_of_ok (run_bnodeLength hlen.le), hlen]
  rfl

theorem bnodeMedian_isMedian (hlen : nodeLength (w.disk s) = 100)
    (h : (bnodeMedian s bubble).run w = .ok med w') :
    w' = w ∧ IsMedian w.bSize s (w.disk s) bubble med := by
  have hmid : (100 + 1) / 2 = 50 := rfl
  have hpriv : bnodeGetEntry 50 - sizeofBentry = bnodeGetEntry 49 := rfl
  rw [bnodeMedian, run_bind_of_ok (run_bnodeIsFull_of hlen),
    run_bind_of_ok (by rw [run_bugOn, if_neg (by decide)]),
    run_bind_of_ok (run_bnodeLength hlen.le), hlen, hmid,
    run_bind_of_ok (by rw [run_bugOn, if_neg (by decide)])] at h
  by_cases hin : bnodeGetEntry 50 + 8 ≤ w.bSize
  case neg =>
    rw [run_bind_of_error (run_bentryId_oob hin)] at h
    cases h
  rw [run_bind_of_ok (run_bentryId hin)] at h
  by_cases habove : be32ToCpu bubble.entry.id > idAt (w.disk s) (bnodeGetEntry 50)
  · rw [if_pos habove] at h
    cases h
    exact ⟨rfl, .node (by decide) le_rfl hin⟩
  have hin' : bnodeGetEntry 49 + 8 ≤ w.bSize := by
    simp only [bnodeGetEntry, entriesOff, sizeofBentry] at hin ⊢
    omega
  rw [if_neg habove, hpriv, run_bind_of_ok (run_bentryId hin')] at h
  by_cases habove' : be32ToCpu bubble.entry.id > idAt (w.disk s) (bnodeGetEntry 49)
  · rw [if_pos habove'] at h
    cases h
    exact ⟨rfl, .bubble (Nat.not_lt.mp habove)⟩
  · rw [if_neg habove'] at h
    cases h
    exact ⟨rfl, .node le_rfl (by decide) hin'⟩

/-- In bytes, the middle of the table is out of reach of `bnode_index_of`. -/
theorem IsMedian.outside {bSize : ℕ} {b : Block} (h : IsMedian bSize s b bubble med) :
    med.indexOf s = bnodeCapacity := by
  cases h with
  | bubble => rfl
  | @node i hi =>
    have hfar : bnodeGetEntry i - entriesOff > bnodeCapacity := by
      simp only [bnodeGetEntry, entriesOff, sizeofBentry, bnodeCapacity]
      omega
    have hle : ¬ entriesOff > bnodeGetEntry i := by
      simp only [bnodeGetEntry]
      omega
    rw [EntryPtr.indexOf, if_pos rfl, bnodeIndexOf, if_neg hle, if_pos hfar]

/-- The median is a pivot while another block is written. -/
theorem IsMedian.isPivot {b : Block} (h : IsMedian w.bSize s b bubble med)
    (hsorted : IdsIncrease b) (hlen : nodeLength b = 100) (hne : s ≠ to_) (hb : w.disk s = b) :
    ∃ pid ≤ idAt b (bnodeGetEntry 50), IsPivot s to_ bubble pid w med := by
  have houtside := h.outside
  cases h with
  | bubble hle => exact ⟨_, hle, houtside, fun _ => rfl⟩
  | @node i hi hi' hin =>
    refine ⟨idAt b (bnodeGetEntry i), ?_, houtside, fun b' => ?_⟩
    · rcases Nat.lt_or_eq_of_le hi' with hlt | rfl
      · exact (hsorted i 50 hlt (by omega)).le
      · exact le_rfl
    · have hdisk : (w.setBlock to_ b').disk s = b :=
        (Function.update_of_ne hne _ _).trans hb
      rw [EntryPtr.id, run_bentryId (show bnodeGetEntry i + 8 ≤ (w.setBlock to_ b').bSize from hin),
        hdisk]

end Median

/-! ## Moving the entries above the median -/

section Partition

variable {from_ to_ i : ℕ} {bubble : BtreeBubble} {w : World}

/-- The first entry that is moved goes into an empty node. -/
theorem bnodePartitionMove_first (bubble : BtreeBubble) (hne : from_ ≠ to_) (hfrom : nodeLength (w.disk from_) = 100)
    (hi : i < 100) (hto : nodeLength (w.disk to_) = 0) :
    (∃ f w', (bnodePartitionMove from_ to_ i bubble).run w = .error f w') ∨
    ∃ b, nodeLength b = 1 ∧
      (bnodePartitionMove from_ to_ i bubble).run w = .ok () (w.setBlock to_ b) := by
  unfold bnodePartitionMove
  by_cases hin : childrenOff + (i + 1) * 8 + 8 ≤ w.bSize
  case neg =>
    exact .inl ⟨_, _, run_bind_of_error (run_bnodeGetChild_oob hfrom.le (by omega) hin)⟩
  rw [run_bind_of_ok (run_bnodeGetChild hfrom.le (by omega) hin)]
  have hentry : bnodeGetEntry i + 16 ≤ w.bSize := by
    simp only [bnodeGetEntry, childrenOff, entriesOff, bnodeCapacity, sizeofBentry] at hin ⊢
    omega
  have hfit : childrenOff + 8 ≤ w.bSize := by omega
  have hinsert := run_bnodeBinInsert_empty (childAt (w.disk from_) (i + 1)) hto hfit
    (EntryPtr.pointsTo_node bubble hne hentry)
  by_cases hbig : 1620 ≤ w.bSize
  · rw [if_pos hbig] at hinsert
    rw [run_bind_of_ok hinsert]
    exact .inr ⟨_, nodeLength_withFirstEntry _ _ _, rfl⟩
  · rw [if_neg hbig] at hinsert
    exact .inl ⟨_, _, run_bind_of_error hinsert⟩

/-- No entry is moved to a node that has one. -/
theorem bnodePartitionMove_second (bubble : BtreeBubble) (hfrom : nodeLength (w.disk from_) = 100) (hi : i < 100)
    (hto : nodeLength (w.disk to_) = 1) :
    ∃ f w', (bnodePartitionMove from_ to_ i bubble).run w = .error f w' := by
  unfold bnodePartitionMove
  by_cases hin : childrenOff + (i + 1) * 8 + 8 ≤ w.bSize
  case neg => exact ⟨_, _, run_bind_of_error (run_bnodeGetChild_oob hfrom.le (by omega) hin)⟩
  rw [run_bind_of_ok (run_bnodeGetChild hfrom.le (by omega) hin)]
  obtain ⟨f, hinsert⟩ := run_bnodeBinInsert_entries (.node from_ (bnodeGetEntry i)) bubble
    (childAt (w.disk from_) (i + 1)) hto.ge (by omega)
  exact ⟨_, _, run_bind_of_error hinsert⟩

variable {pivot : EntryPtr} {pid : ℕ}

/-- With an entry moved, the next one above the pivot stops the loop. -/
theorem bnodePartitionGreater_second {n drop : ℕ} (hpivot : IsPivot from_ to_ bubble pid w pivot)
    (hfrom : nodeLength (w.disk from_) = 100) (hto : nodeLength (w.disk to_) = 1) (hi : i < 100)
    (habove : pid < idAt (w.disk from_) (bnodeGetEntry i)) :
    ∃ f w', (bnodePartitionGreater from_ to_ pivot bubble (n + 1) i true drop).run w =
      .error f w' := by
  have hid := hpivot.id (w.disk to_)
  rw [World.setBlock_self] at hid
  rw [bnodePartitionGreater, run_bind_of_ok (run_bnodeLength hfrom.le), hfrom, if_pos hi]
  by_cases hin : bnodeGetEntry i + 8 ≤ w.bSize
  case neg => exact ⟨_, _, run_bind_of_error (run_bentryId_oob hin)⟩
  obtain ⟨f, w', hmove⟩ := bnodePartitionMove_second bubble hfrom hi hto
  rw [run_bind_of_ok (run_bentryId hin), run_bind_of_ok hid, if_pos habove]
  exact ⟨_, _, run_bind_of_error hmove⟩

/-- Of the entries from `i` on at least two lie above the pivot, so the loop does not
end. The induction is on the entries left. -/
theorem bnodePartitionGreater_first {n drop : ℕ} (hpivot : IsPivot from_ to_ bubble pid w pivot)
    (hne : from_ ≠ to_) (hfrom : nodeLength (w.disk from_) = 100)
    (hsorted : IdsIncrease (w.disk from_)) (hto : nodeLength (w.disk to_) = 0)
    (hpid : pid ≤ idAt (w.disk from_) (bnodeGetEntry 50)) (hi : i ≤ 98) (hn : 100 ≤ n + i) :
    ∃ f w', (bnodePartitionGreater from_ to_ pivot bubble n i false drop).run w =
      .error f w' := by
  induction n generalizing i with
  | zero => omega
  | succ n ih =>
    have hid := hpivot.id (w.disk to_)
    rw [World.setBlock_self] at hid
    rw [bnodePartitionGreater, run_bind_of_ok (run_bnodeLength hfrom.le), hfrom,
      if_pos (show i < 100 by omega)]
    by_cases hin : bnodeGetEntry i + 8 ≤ w.bSize
    case neg => exact ⟨_, _, run_bind_of_error (run_bentryId_oob hin)⟩
    rw [run_bind_of_ok (run_bentryId hin), run_bind_of_ok hid]
    by_cases habove : idAt (w.disk from_) (bnodeGetEntry i) > pid
    · rw [if_pos habove]
      rcases bnodePartitionMove_first bubble hne hfrom (show i < 100 by omega) hto with
        ⟨f, w', hmove⟩ | ⟨b, hb, hmove⟩
      · exact ⟨_, _, run_bind_of_error hmove⟩
      have hkept : (w.setBlock to_ b).disk from_ = w.disk from_ := Function.update_of_ne hne _ _
      have hnext : idAt (w.disk from_) (bnodeGetEntry i) <
          idAt (w.disk from_) (bnodeGetEntry (i + 1)) := hsorted i (i + 1) (by omega) (by omega)
      obtain ⟨n, rfl⟩ := Nat.exists_eq_succ_of_ne_zero (show n ≠ 0 by omega)
      rw [run_bind_of_ok hmove]
      have hpivot' : IsPivot from_ to_ bubble pid (w.setBlock to_ b) pivot := by
        refine ⟨hpivot.outside, fun b' => ?_⟩
        rw [World.setBlock_setBlock]
        exact hpivot.id b'
      refine bnodePartitionGreater_second hpivot' ?_ ?_ (by omega) ?_
      · rw [hkept, hfrom]
      · simp [hb]
      · rw [hkept]
        omega
    · -- the last entries are all above the pivot
      have hlast : i ≠ 98 := by
        rintro rfl
        have := hsorted 50 98 (by decide) (by omega)
        omega
      rw [if_neg habove, run_bind_of_ok (by rw [run_bugOn, if_neg (by decide)])]
      exact ih (by omega) (by omega)

/-- The partition of a full node around its median does not end. -/
theorem bnodePartition_full (hpivot : IsPivot from_ to_ bubble pid w pivot)
    (hne : from_ ≠ to_) (hfrom : nodeLength (w.disk from_) = 100)
    (hsorted : IdsIncrease (w.disk from_)) (hto : nodeLength (w.disk to_) = 0)
    (hpid : pid ≤ idAt (w.disk from_) (bnodeGetEntry 50)) :
    ∃ f w', (bnodePartition from_ pivot to_ bubble).run w = .error f w' := by
  obtain ⟨f, w', hloop⟩ : ∃ f w', (bnodePartitionGreater from_ to_ pivot bubble bnodeCapacity 0
      false 0).run w = .error f w' :=
    bnodePartitionGreater_first hpivot hne hfrom hsorted hto hpid (by omega) (by decide)
  refine ⟨f, w', ?_⟩
  rw [bnodePartition, hpivot.outside, if_neg (not_not.mpr rfl)]
  exact run_bind_of_error hloop

/-- A node that was cleared to be its own right half has nothing to move. -/
theorem bnodePartition_cleared (houtside : pivot.indexOf from_ = bnodeCapacity)
    (hfrom : nodeLength (w.disk from_) = 0) :
    (bnodePartition from_ pivot to_ bubble).run w = .error .bug w := by
  have hle : nodeLength (w.disk from_) ≤ 100 := by omega
  have hloop : (bnodePartitionGreater from_ to_ pivot bubble bnodeCapacity 0 false 0).run w =
      .ok (false, 0) w := by
    rw [bnodeCapacity, bnodePartitionGreater, run_bind_of_ok (run_bnodeLength hle), hfrom,
      if_neg (Nat.lt_irrefl 0), EStateM.run_pure]
  rw [bnodePartition, houtside, if_neg (not_not.mpr rfl)]
  rw [run_bind_of_ok hloop]
  rfl

end Partition

/-! ## What the fixup is for -/

/-- The node `b` and the entry `e` with the child `g` behind it are split into the nodes
`l` and `r` and the bubble. -/
structure SplitInto (b : Block) (e : Bentry) (g i : ℕ) (l r : Block) (bubble : BtreeBubble)
    (right : ℕ) : Prop where
  below : ∀ k < i, idAt b (bnodeGetEntry k) < be32ToCpu e.id
  above : ∀ k, i ≤ k → k < nodeLength b → be32ToCpu e.id < idAt b (bnodeGetEntry k)
  left_length : nodeLength l = 50
  right_length : nodeLength r = 50
  entries : entriesOf l ++ bubble.entry :: entriesOf r = (entriesOf b).insertIdx i e
  children : childrenOf l ++ childrenOf r = (childrenOf b).insertIdx (i + 1) g
  greater : bubble.greater = right

/-- A full node is split, one with room takes in the entry and calms the bubble. -/
def FixesUp (env : Env) (s : ℕ) (bubble : BtreeBubble) (w : World) : Prop :=
  ∃ bubble' w', (btreeFixup env s bubble).run w = .ok (0, bubble') w' ∧
    if nodeLength (w.disk s) = 100 then
      ∃ i right, right = (spfsFreeAlloc w.sbi.freeList w.sbi.tree.blocks).1 ∧
        SplitInto (w.disk s) bubble.entry bubble.greater i (w'.disk s) (w'.disk right) bubble' right
    else
      (∃ i, InsertedAt (w.disk s) (w'.disk s) bubble.entry bubble.greater i) ∧
        bubbleIsActive bubble' = false

section Fixup

variable {env : Env} {s : ℕ} {bubble bubble' : BtreeBubble} {w w' : World} {res : ℤ}

/-- A node with room leaves the bubble as it was. -/
theorem btreeFixup_room (hlen : nodeLength (w.disk s) < 100)
    (h : (btreeFixup env s bubble).run w = .ok (res, bubble') w') : bubble' = bubble := by
  have hfull : (bnodeIsFull s).run w = .ok false w := by
    rw [bnodeIsFull, run_bind_of_ok (run_bnodeLength hlen.le), EStateM.run_pure,
      beq_eq_false_iff_ne.mpr (show nodeLength (w.disk s) ≠ bnodeCapacity from hlen.ne)]
  rw [btreeFixup, run_bind_eq_ok] at h
  obtain ⟨_, w₁, hbug, h⟩ := h
  rw [run_bugOn] at hbug
  split at hbug
  · cases hbug
  cases hbug
  rw [run_bind_of_ok hfull] at h
  simp only [Bool.not_false, if_true] at h
  obtain ⟨_, _, -, h⟩ := run_bind_eq_ok.mp h
  obtain ⟨_, _, -, h⟩ := run_bind_eq_ok.mp h
  cases h
  rfl

/-- Splitting comes to an end only when the new block cannot be read. -/
theorem btreeFixup_full (hlen : nodeLength (w.disk s) = 100) (hsorted : IdsIncrease (w.disk s)) :
    (btreeFixup env s bubble).run w ≠ .ok (0, bubble') w' := by
  rw [btreeFixup]
  intro h
  obtain ⟨_, _, hbug, h₁⟩ := run_bind_eq_ok.mp h
  rw [run_bugOn] at hbug
  split at hbug
  · cases hbug
  cases hbug
  rw [run_bind_of_ok (run_bnodeIsFull_of hlen)] at h₁
  simp only [Bool.not_true, Bool.false_eq_true, if_false] at h₁
  obtain ⟨med, w₁, hmed, h₂⟩ := run_bind_eq_ok.mp h₁
  obtain ⟨rfl, hmedian⟩ := bnodeMedian_isMedian hlen hmed
  rw [run_bind_of_ok (EStateM.run_get _)] at h₂
  obtain ⟨right, w₂, halloc, h₃⟩ := run_bind_eq_ok.mp h₂
  obtain ⟨hdisk, hsize⟩ := freeAlloc_disk halloc
  obtain ⟨_, _, hbug, h₄⟩ := run_bind_eq_ok.mp h₃
  rw [run_bugOn] at hbug
  split at hbug
  · cases hbug
  cases hbug
  rw [run_bind_of_ok (run_sbBread _ _ _)] at h₄
  cases hio : env.ioOk w₂.time right with
  | false =>
    rw [hio] at h₄
    cases h₄
  | true =>
    rw [hio] at h₄
    simp only [Bool.not_true, Bool.false_eq_true, if_false] at h₄
    rw [bnodeMake, run_bind_of_ok (run_memZero _ _)] at h₄
    set w₃ := w₂.addEvent (.bread right true)
    set w₄ := w₃.setBlock right ((w₃.disk right).write 0 (List.replicate w₃.bSize 0)) with hw₄
    have hcleared : nodeLength (w₄.disk right) = 0 := by
      simp only [hw₄, World.setBlock_disk, Function.update_self]
      exact nodeLength_zero (by have := w₃.le_bSize; omega)
    suffices hstuck : ∃ f w', (bnodePartition s med right bubble).run w₄ = .error f w' by
      obtain ⟨f, w'', hstuck⟩ := hstuck
      rw [run_bind_of_error hstuck] at h₄
      cases h₄
    by_cases hright : s = right
    · exact ⟨_, _, bnodePartition_cleared hmedian.outside (by rw [hright, hcleared])⟩
    · have hkept : w₄.disk s = w₁.disk s := by
        rw [hw₄, World.setBlock_disk, Function.update_of_ne hright]
        exact congrFun hdisk s
      have hbSize : w₄.bSize = w₁.bSize := hsize
      rw [← hbSize] at hmedian
      obtain ⟨pid, hpid, hpivot⟩ := hmedian.isPivot hsorted hlen hright hkept
      exact bnodePartition_full hpivot hright (by rw [hkept, hlen]) (by rw [hkept]; exact hsorted)
        hcleared (by rw [hkept]; exact hpid)

/-- The fixup of a node never does its work: the split of a full node does not end, and
a node with room leaves the bubble active. -/
theorem btreeFixup_not_fixesUp (hcap : nodeLength (w.disk s) ≤ 100)
    (hsorted : IdsIncrease (w.disk s)) (hactive : bubbleIsActive bubble = true) :
    ¬ FixesUp env s bubble w := by
  rintro ⟨bubble', w', hrun, hfixed⟩
  rcases Nat.lt_or_eq_of_le hcap with hroom | hfull
  · rw [if_neg hroom.ne, btreeFixup_room hroom hrun, hactive] at hfixed
    cases hfixed.2
  · exact btreeFixup_full hfull hsorted hrun

theorem btreeFixup_not_fixesUp_oneEntry :
    ¬ FixesUp (.calm 9) 7 (bubbleMake 9 8 0) oneEntryWorld := by
  have hlen : nodeLength (oneEntryWorld.disk 7) = 1 := by decide
  exact btreeFixup_not_fixesUp (by decide) (fun i j hij hj => by omega) (by decide)

/-- An empty node takes in the bubble, which is still active afterwards. -/
theorem not_fixesUp_fresh :
    nodeLength (freshWorld.disk 7) = 0 ∧ bubbleIsActive (bubbleMake 5 8 0) = true ∧
      ¬ FixesUp (.calm 9) 7 (bubbleMake 5 8 0) freshWorld := by
  refine ⟨by decide, by decide, ?_⟩
  rintro ⟨bubble', w', hrun, hfixed⟩
  have hroom : nodeLength (freshWorld.disk 7) < 100 := by decide
  rw [if_neg hroom.ne, btreeFixup_room hroom hrun] at hfixed
  exact absurd hfixed.2 (by decide)

end Fixup

end Spfs
