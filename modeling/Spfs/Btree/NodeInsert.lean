-- SUMMARY: btree.c: what an insertion into a node does, in full for the empty node and in outline for all others.
import Mathlib.Data.List.InsertIdx
import Spfs.Btree.Insert

/-!
# Inserting into a node

Only an empty node takes in an entry (`run_bnodeBinInsert_empty`): its first child
is cleared, and the entry, the length, and the child after the entry are stored. In
a node with entries the search for the place does not come back, except with the
very id that is to be inserted, which is a bug (`run_bnodeBinInsert_entries`).
-/

namespace Spfs

open EStateM (run_bind_of_ok run_bind_of_error run_bind_eq_ok)

/-! ## Writes to a node -/

theorem nodeLength_write_of_le {b : Block} {off : ℕ} {l : List UInt8} (h : 4 ≤ off) :
    nodeLength (b.write off l) = nodeLength b := by
  rw [nodeLength, nodeLength, Block.read_write_of_disjoint (by omega)]

theorem nodeLength_write_length (b : Block) (n : ℕ) :
    nodeLength (b.write 0 (beEncode 4 n)) = n % 2 ^ 32 := by
  rw [nodeLength, Block.read_write_same (length_beEncode 4 n), beDecode_beEncode]
  rfl

/-- A cleared block is an empty node. -/
theorem nodeLength_zero {b : Block} {n : ℕ} (h : 4 ≤ n) :
    nodeLength (b.write 0 (List.replicate n 0)) = 0 := by
  have hsplit : List.replicate n (0 : UInt8) =
      List.replicate 4 0 ++ List.replicate (n - 4) 0 := by
    rw [List.replicate_append_replicate]
    congr 1
    omega
  rw [nodeLength, hsplit, Block.write_append, Block.read_write_of_disjoint (by simp),
    Block.read_write_same (by simp)]
  rfl

theorem childAt_write_of_le {b : Block} {off i : ℕ} {l : List UInt8}
    (h : off + l.length ≤ childrenOff) : childAt (b.write off l) i = childAt b i := by
  rw [childAt, childAt, Block.read_write_of_disjoint (by omega)]

theorem childAt_write_other {b : Block} {i j child : ℕ} (h : i ≠ j) :
    childAt (b.write (childrenOff + j * 8) (cpuToBe32 child).val) i = childAt b i := by
  have hlen := (cpuToBe32 child).property
  rw [childAt, childAt, Block.read_write_of_disjoint (by omega)]

/-- A child is stored in 32 bits. -/
theorem childAt_write_same (b : Block) (i child : ℕ) :
    childAt (b.write (childrenOff + i * 8) (cpuToBe32 child).val) i = child % 2 ^ 32 := by
  rw [childAt, ← take_read, Block.read_write_same (cpuToBe32 child).property]
  exact be32ToCpu_cpuToBe32 child

/-- The node after its first entry was stored and the length set, -/
def withEntry (b : Block) (e : Bentry) : Block :=
  (b.write (bnodeGetEntry 0) (e.id.val ++ e.offset.val)).write 0 (beEncode 4 1)

/-- and after the child behind that entry was stored, too. -/
def withFirstEntry (b : Block) (e : Bentry) (gt : ℕ) : Block :=
  (withEntry b e).write (childrenOff + 1 * 8) (cpuToBe32 gt).val

theorem length_entry (e : Bentry) : (e.id.val ++ e.offset.val).length = 16 := by
  rw [List.length_append, e.id.property, e.offset.property]

@[simp] theorem nodeLength_withEntry (b : Block) (e : Bentry) : nodeLength (withEntry b e) = 1 :=
  nodeLength_write_length _ _

@[simp] theorem nodeLength_withFirstEntry (b : Block) (e : Bentry) (gt : ℕ) :
    nodeLength (withFirstEntry b e gt) = 1 :=
  (nodeLength_write_of_le (by decide)).trans (nodeLength_withEntry b e)

@[simp] theorem bentryAt_withFirstEntry (b : Block) (e : Bentry) (gt : ℕ) :
    bentryAt (withFirstEntry b e gt) 0 = e := by
  have hread (pos len : ℕ) (hpos : 4 ≤ pos) (hend : pos + len ≤ 1604) :
      (withFirstEntry b e gt).read pos len =
        (b.write (bnodeGetEntry 0) (e.id.val ++ e.offset.val)).read pos len := by
    have hbefore : pos + len ≤ childrenOff + 1 * 8 := by
      simp only [childrenOff, entriesOff, bnodeCapacity, sizeofBentry]
      omega
    have hafter : 0 + (beEncode 4 1).length ≤ pos := by
      rw [length_beEncode]
      omega
    rw [withFirstEntry, withEntry, Block.read_write_of_disjoint (.inl hbefore),
      Block.read_write_of_disjoint (.inr hafter)]
  have hid : (withFirstEntry b e gt).read (bnodeGetEntry 0) 8 = e.id.val := by
    rw [hread _ _ (by decide) (by decide), Block.write_append, Block.read_write_of_disjoint,
      Block.read_write_same e.id.property]
    rw [e.id.property]
    exact .inl le_rfl
  have hoffset : (withFirstEntry b e gt).read (bnodeGetEntry 0 + 8) 8 = e.offset.val := by
    rw [hread _ _ (by decide) (by decide), Block.write_append, e.id.property,
      Block.read_write_same e.offset.property]
  obtain ⟨id, offset⟩ := e
  exact congrArg₂ Bentry.mk (Subtype.ext hid) (Subtype.ext hoffset)

theorem childAt_withFirstEntry_zero (b : Block) (e : Bentry) (gt : ℕ) :
    childAt (withFirstEntry b e gt) 0 = childAt b 0 := by
  rw [withFirstEntry, withEntry, childAt_write_other (by decide),
    childAt_write_of_le (by decide : 0 + (beEncode 4 1).length ≤ childrenOff),
    childAt_write_of_le (by rw [length_entry]; decide)]

theorem childAt_withFirstEntry_one (b : Block) (e : Bentry) (gt : ℕ) :
    childAt (withFirstEntry b e gt) 1 = gt % 2 ^ 32 :=
  childAt_write_same _ 1 gt

/-! ## The empty node -/

/-- The pointer stands for the entry `e`, whatever is stored in block `s`. -/
structure EntryPtr.PointsTo (in_ : EntryPtr) (bubble : BtreeBubble) (s : ℕ) (e : Bentry)
    (w : World) : Prop where
  id : ∀ b, (in_.id bubble).run (w.setBlock s b) = .ok (be32ToCpu e.id) (w.setBlock s b)
  load : ∀ b, (in_.load bubble).run (w.setBlock s b) = .ok e (w.setBlock s b)

theorem EntryPtr.pointsTo_bubble (bubble : BtreeBubble) (s : ℕ) (w : World) :
    EntryPtr.bubble.PointsTo bubble s bubble.entry w :=
  ⟨fun _ => rfl, fun _ => rfl⟩

theorem EntryPtr.pointsTo_node (bubble : BtreeBubble) {s s' i : ℕ} {w : World} (hne : s' ≠ s)
    (hin : bnodeGetEntry i + 16 ≤ w.bSize) :
    (EntryPtr.node s' (bnodeGetEntry i)).PointsTo bubble s (bentryAt (w.disk s') i) w where
  id b := by
    have hdisk : (w.setBlock s b).disk s' = w.disk s' := Function.update_of_ne hne _ _
    rw [EntryPtr.id, run_bentryId (show bnodeGetEntry i + 8 ≤ (w.setBlock s b).bSize by
      rw [World.setBlock_bSize]; omega), hdisk]
    rw [be32ToCpu, bentryAt, Block.readBytes, take_read, idAt]
  load b := by
    have hdisk : (w.setBlock s b).disk s' = w.disk s' := Function.update_of_ne hne _ _
    simp [EntryPtr.load, bentryLoad, sizeofBentry, hin, hdisk, bentryAt]

section EmptyNode

variable {s : ℕ} {in_ : EntryPtr} {bubble : BtreeBubble} {e : Bentry} {w : World}

theorem run_bnodeSetLength {n : ℕ} (h : n ≤ 100) :
    (bnodeSetLength s n).run w =
      .ok n (w.setBlock s ((w.disk s).write 0 (beEncode 4 n))) := by
  have hcap : ¬ n > bnodeCapacity := Nat.not_lt.mpr h
  have hfits : 0 + (beEncode 4 n).length ≤ w.bSize := by
    have := w.le_bSize
    simp only [length_beEncode]
    omega
  rw [bnodeSetLength, run_bind_of_ok (by rw [run_bugOn, if_neg hcap]),
    run_bind_of_ok (run_memWrite hfits), EStateM.run_pure]

/-- The writes of an insertion at the first entry of an empty node. Its second child
does not fit into a block that is shorter than 1620 bytes. -/
theorem run_bnodeInsertAt_empty (gt : ℕ) (hlen : nodeLength (w.disk s) = 0)
    (hin : in_.PointsTo bubble s e w) :
    (bnodeInsertAt s entriesOff in_ bubble gt).run w =
      if 1620 ≤ w.bSize then .ok () (w.setBlock s (withFirstEntry (w.disk s) e gt))
      else .error .oob (w.setBlock s (withEntry (w.disk s) e)) := by
  have hsize := w.le_bSize
  have hle : nodeLength (w.disk s) ≤ 100 := by omega
  have hindex : bnodeIndexOf entriesOff = 0 := by decide
  have hnocap : ¬ 0 = bnodeCapacity := by decide
  have hshift : bnodeShift 0 0 = 0 := by decide
  have hmove : (memMove s (entriesOff + sizeofBentry) entriesOff 0).run w = .ok () w := by
    have hread : entriesOff + 0 ≤ w.bSize := by
      simp only [entriesOff]
      omega
    have hwrite : entriesOff + sizeofBentry + ([] : List UInt8).length ≤ w.bSize := by
      simp only [entriesOff, sizeofBentry, List.length_nil]
      omega
    rw [memMove, run_bind_of_ok (run_memRead hread), Block.read_zero, run_memWrite hwrite,
      Block.write_nil, World.setBlock_self]
  have hload : (in_.load bubble).run w = .ok e w := by
    have := hin.load (w.disk s)
    rwa [World.setBlock_self] at this
  -- the entry, the length, and the child
  have hentry : bnodeGetEntry 0 + (e.id.val ++ e.offset.val).length ≤ w.bSize := by
    simp only [length_entry, bnodeGetEntry, entriesOff]
    omega
  set w₁ := w.setBlock s ((w.disk s).write (bnodeGetEntry 0) (e.id.val ++ e.offset.val)) with hw₁
  set w₂ := w.setBlock s (withEntry (w.disk s) e) with hw₂
  have hset : (bnodeSetLength s 1).run w₁ = .ok 1 w₂ := by
    rw [run_bnodeSetLength (by decide)]
    simp [hw₁, hw₂, withEntry]
  rw [bnodeInsertAt, hindex, run_bind_of_ok (by rw [run_bugOn, if_neg hnocap]),
    run_bind_of_ok (run_bnodeLength hle), hlen, hshift, run_bind_of_ok hmove,
    run_bind_of_ok hload, bnodeSetEntry, run_bind_of_ok (run_memWrite hentry),
    run_bind_of_ok hset]
  by_cases hbig : 1620 ≤ w.bSize
  · have hchild : childrenOff + 1 * 8 + (cpuToBe32 gt).val.length ≤ w₂.bSize := by
      rw [(cpuToBe32 gt).property]
      exact hbig
    set w₃ := w.setBlock s (withFirstEntry (w.disk s) e gt) with hw₃
    have hstore : (memWrite s (childrenOff + 1 * 8) (cpuToBe32 gt).val).run w₂ = .ok () w₃ := by
      rw [run_memWrite hchild]
      simp [hw₂, hw₃, withFirstEntry]
    have hlen₃ : nodeLength (w₃.disk s) = 1 := by simp [hw₃]
    rw [if_pos hbig, bnodeSetChild, run_bind_of_ok hstore,
      run_bind_of_ok (run_bnodeLength (by rw [hlen₃]; decide)), hlen₃, run_bugOn,
      if_neg (by simp)]
  · have hchild : ¬ childrenOff + 1 * 8 + (cpuToBe32 gt).val.length ≤ w₂.bSize := by
      rw [(cpuToBe32 gt).property]
      exact hbig
    rw [if_neg hbig, bnodeSetChild, run_bind_of_error (run_memWrite_oob hchild)]

/-- An empty node whose first child was cleared. -/
def withNoChild (b : Block) : Block := b.write (childrenOff + 0 * 8) (cpuToBe32 0).val

theorem nodeLength_withNoChild (b : Block) : nodeLength (withNoChild b) = nodeLength b :=
  nodeLength_write_of_le (by decide)

@[simp] theorem childAt_withNoChild (b : Block) : childAt (withNoChild b) 0 = 0 :=
  childAt_write_same b 0 0

/-- Inserting into an empty node. -/
theorem run_bnodeBinInsert_empty (gt : ℕ) (hlen : nodeLength (w.disk s) = 0)
    (hfit : childrenOff + 8 ≤ w.bSize) (hin : in_.PointsTo bubble s e w) :
    (bnodeBinInsert s in_ bubble gt).run w =
      if 1620 ≤ w.bSize then
        .ok (some entriesOff) (w.setBlock s (withFirstEntry (withNoChild (w.disk s)) e gt))
      else .error .oob (w.setBlock s (withEntry (withNoChild (w.disk s)) e)) := by
  have hle : nodeLength (w.disk s) ≤ 100 := by omega
  have hfull : (bnodeIsFull s).run w = .ok false w := by
    rw [bnodeIsFull, run_bind_of_ok (run_bnodeLength hle), hlen]
    rfl
  have hchild : (bnodeChildLength s).run w = .ok 0 w := by
    rw [bnodeChildLength, run_bind_of_ok (run_bnodeLength hle), hlen]
    rfl
  have hset : childrenOff + 0 * 8 + (cpuToBe32 0).val.length ≤ w.bSize := by
    rw [(cpuToBe32 0).property]
    exact hfit
  set w₁ := w.setBlock s (withNoChild (w.disk s)) with hw₁
  have hlen₁ : nodeLength (w₁.disk s) = 0 := by
    rw [hw₁, World.setBlock_disk, Function.update_self, nodeLength_withNoChild, hlen]
  have hplace : (bnodeFindPlace s in_ bubble).run w₁ = .ok entriesOff w₁ := by
    rw [bnodeFindPlace, run_bind_of_ok (hin.id _),
      run_bind_of_ok (run_bnodeBinFindGte_empty _ _ hlen₁)]
    rfl
  have hin₁ : in_.PointsTo bubble s e w₁ := by
    constructor <;> intro b <;> rw [hw₁, World.setBlock_setBlock]
    · exact hin.id b
    · exact hin.load b
  have hinsert := run_bnodeInsertAt_empty gt hlen₁ hin₁
  rw [bnodeBinInsert, run_bind_of_ok hfull]
  simp only [Bool.false_eq_true, if_false]
  rw [run_bind_of_ok hchild]
  simp only [if_true]
  rw [bnodeSetChild, run_bind_of_ok (run_memWrite hset)]
  change (bnodeFindPlace s in_ bubble >>= _).run w₁ = _
  rw [run_bind_of_ok hplace]
  by_cases hbig : 1620 ≤ w.bSize
  · rw [if_pos (show 1620 ≤ w₁.bSize from hbig)] at hinsert
    rw [if_pos hbig, run_bind_of_ok hinsert, EStateM.run_pure]
    simp [hw₁]
  · rw [if_neg (show ¬ 1620 ≤ w₁.bSize from hbig)] at hinsert
    rw [if_neg hbig, run_bind_of_error hinsert]
    simp [hw₁]

/-- Where there is no room for a child, the first one cannot even be cleared. -/
theorem run_bnodeBinInsert_empty_oob {gt : ℕ} (hlen : nodeLength (w.disk s) = 0)
    (hfit : ¬ childrenOff + 8 ≤ w.bSize) :
    (bnodeBinInsert s in_ bubble gt).run w = .error .oob w := by
  have hle : nodeLength (w.disk s) ≤ 100 := by omega
  have hfull : (bnodeIsFull s).run w = .ok false w := by
    rw [bnodeIsFull, run_bind_of_ok (run_bnodeLength hle), hlen]
    rfl
  have hchild : (bnodeChildLength s).run w = .ok 0 w := by
    rw [bnodeChildLength, run_bind_of_ok (run_bnodeLength hle), hlen]
    rfl
  have hset : ¬ childrenOff + 0 * 8 + (cpuToBe32 0).val.length ≤ w.bSize := by
    rw [(cpuToBe32 0).property]
    exact hfit
  rw [bnodeBinInsert, run_bind_of_ok hfull]
  simp only [Bool.false_eq_true, if_false]
  rw [run_bind_of_ok hchild]
  simp only [if_true]
  rw [bnodeSetChild, run_bind_of_error (run_memWrite_oob hset)]

end EmptyNode

/-! ## A node with entries -/

section Entries

variable {s gt : ℕ} {in_ : EntryPtr} {bubble : BtreeBubble} {w : World}

/-- Reading the id of an entry does not change anything. -/
theorem EntryPtr.run_id_cases (in_ : EntryPtr) (bubble : BtreeBubble) (w : World) :
    (∃ id, (in_.id bubble).run w = .ok id w) ∨ (in_.id bubble).run w = .error .oob w := by
  cases in_ with
  | node s addr =>
    by_cases hin : addr + 8 ≤ w.bSize
    · exact .inl ⟨_, run_bentryId hin⟩
    · exact .inr (run_bentryId_oob hin)
  | bubble => exact .inl ⟨_, rfl⟩

/-- A node with entries takes in no other. -/
theorem run_bnodeBinInsert_entries (in_ : EntryPtr) (bubble : BtreeBubble) (gt : ℕ)
    (hlen : 1 ≤ nodeLength (w.disk s))
    (hroom : nodeLength (w.disk s) < 100) :
    ∃ f, (bnodeBinInsert s in_ bubble gt).run w = .error f w := by
  have hle : nodeLength (w.disk s) ≤ 100 := hroom.le
  have hfull : (bnodeIsFull s).run w = .ok false w := by
    rw [bnodeIsFull, run_bind_of_ok (run_bnodeLength hle), EStateM.run_pure,
      beq_eq_false_iff_ne.mpr (show nodeLength (w.disk s) ≠ bnodeCapacity from hroom.ne)]
  have hchild : (bnodeChildLength s).run w = .ok (nodeLength (w.disk s) + 1) w := by
    rw [bnodeChildLength, run_bind_of_ok (run_bnodeLength hle), if_neg (by omega),
      EStateM.run_pure]
  have hplace : ∃ f, (bnodeFindPlace s in_ bubble).run w = .error f w := by
    rcases in_.run_id_cases bubble w with ⟨needle, hid⟩ | hid
    case inr => exact ⟨_, by rw [bnodeFindPlace, run_bind_of_error hid]⟩
    rw [bnodeFindPlace, run_bind_of_ok hid]
    rcases run_bnodeBinFindGte s needle hlen hle with ⟨j, hhit, hfind⟩ | ⟨-, hfind⟩
    · -- the search only ends at the id itself
      refine ⟨.bug, ?_⟩
      rw [run_bind_of_ok hfind]
      simp only
      rw [run_bind_of_ok (run_bentryId hhit.inside), hhit.eq,
        run_bind_of_error (by rw [run_bugOn, if_pos rfl])]
    · exact ⟨.oob, by rw [run_bind_of_error hfind]⟩
  obtain ⟨f, hplace⟩ := hplace
  refine ⟨f, ?_⟩
  rw [bnodeBinInsert, run_bind_of_ok hfull]
  simp only [Bool.false_eq_true, if_false]
  rw [run_bind_of_ok hchild]
  simp only [Nat.add_eq_zero_iff, Nat.one_ne_zero, and_false, if_false]
  rw [run_bind_of_error hplace]

end Entries

/-! ## What the insertion is for -/

/-- The entries of a node. -/
def entriesOf (b : Block) : List Bentry := (List.range (nodeLength b)).map (bentryAt b)

/-- The children of a node, one more than it has entries. -/
def childrenOf (b : Block) : List ℕ := (List.range (nodeLength b + 1)).map (childAt b)

/-- The node `b'` is `b` with the entry `e` at its sorted position `i` and the child `gt`
behind it. -/
structure InsertedAt (b b' : Block) (e : Bentry) (gt i : ℕ) : Prop where
  below : ∀ k < i, idAt b (bnodeGetEntry k) < be32ToCpu e.id
  above : ∀ k, i ≤ k → k < nodeLength b → be32ToCpu e.id < idAt b (bnodeGetEntry k)
  length : nodeLength b' = nodeLength b + 1
  entries : entriesOf b' = (entriesOf b).insertIdx i e
  children : childrenOf b' = (childrenOf b).insertIdx (i + 1) gt

/-- The only entry of a node goes into place. -/
theorem insertedAt_withFirstEntry {b b₀ : Block} {e : Bentry} {gt : ℕ} (hlen : nodeLength b = 0)
    (hchild : childAt b₀ 0 = childAt b 0) (hgt : gt < 2 ^ 32) :
    InsertedAt b (withFirstEntry b₀ e gt) e gt 0 where
  below := by simp
  above := by simp [hlen]
  length := by simp [hlen]
  entries := by simp [entriesOf, hlen]
  children := by
    have hrange : List.range 2 = [0, 1] := rfl
    have hone : childAt (withFirstEntry b₀ e gt) 1 = gt := by
      rw [childAt_withFirstEntry_one, Nat.mod_eq_of_lt hgt]
    simp [childrenOf, hlen, hrange, childAt_withFirstEntry_zero, hchild, hone]

/-- An insertion into a node keeps order and children exactly when the node is empty,
its only child is 0, the child to store fits into 32 bits, and the block has room for
two children. -/
theorem bnodeBinInsert_insertedAt_iff {s gt : ℕ} {in_ : EntryPtr} {bubble : BtreeBubble}
    {e : Bentry} {w : World} (hroom : nodeLength (w.disk s) < 100)
    (hin : in_.PointsTo bubble s e w) :
    (∃ addr w' i, (bnodeBinInsert s in_ bubble gt).run w = .ok (some addr) w' ∧
      InsertedAt (w.disk s) (w'.disk s) e gt i) ↔
    nodeLength (w.disk s) = 0 ∧ childAt (w.disk s) 0 = 0 ∧ gt < 2 ^ 32 ∧ 1620 ≤ w.bSize := by
  rcases Nat.eq_zero_or_pos (nodeLength (w.disk s)) with hlen | hlen
  case inr =>
    obtain ⟨f, hrun⟩ := run_bnodeBinInsert_entries in_ bubble gt hlen hroom
    rw [hrun]
    constructor
    · rintro ⟨addr, w', i, hok, -⟩
      cases hok
    · rintro ⟨hempty, -⟩
      omega
  constructor
  · rintro ⟨addr, w', i, hok, hat⟩
    by_cases hfit : childrenOff + 8 ≤ w.bSize
    case neg =>
      rw [run_bnodeBinInsert_empty_oob hlen hfit] at hok
      cases hok
    rw [run_bnodeBinInsert_empty gt hlen hfit hin] at hok
    by_cases hbig : 1620 ≤ w.bSize
    case neg =>
      rw [if_neg hbig] at hok
      cases hok
    rw [if_pos hbig] at hok
    cases hok
    have hentries := hat.entries
    have hchildren := hat.children
    have hrange : List.range 2 = [0, 1] := rfl
    simp only [World.setBlock_disk, Function.update_self, entriesOf, childrenOf, hlen,
      nodeLength_withFirstEntry, hrange, Nat.zero_add, List.range_one, List.range_zero, List.map_cons,
      List.map_nil, childAt_withFirstEntry_zero, childAt_withNoChild,
      childAt_withFirstEntry_one] at hentries hchildren
    -- an entry goes into no other place of an empty table than the first
    cases i with
    | zero =>
      rw [List.insertIdx_succ_cons, List.insertIdx_zero, List.cons.injEq, List.cons.injEq]
        at hchildren
      refine ⟨hlen, hchildren.1.symm, ?_, hbig⟩
      have := hchildren.2.1
      omega
    | succ i =>
      rw [List.insertIdx_of_length_lt (by simp)] at hentries
      cases hentries
  · rintro ⟨-, hchild, hgt, hbig⟩
    have hfit : childrenOff + 8 ≤ w.bSize := by
      simp only [childrenOff, entriesOff, bnodeCapacity, sizeofBentry]
      omega
    refine ⟨_, _, 0, (run_bnodeBinInsert_empty gt hlen hfit hin).trans (if_pos hbig), ?_⟩
    rw [World.setBlock_disk, Function.update_self]
    exact insertedAt_withFirstEntry hlen (by rw [childAt_withNoChild, hchild]) hgt

theorem bnodeBinInsert_insertedAt_iff_fresh :
    (∃ addr w' i, (bnodeBinInsert 7 .bubble (bubbleMake 5 8 0) 0).run freshWorld =
      .ok (some addr) w' ∧
      InsertedAt (freshWorld.disk 7) (w'.disk 7) (bubbleMake 5 8 0).entry 0 i) ↔
    nodeLength (freshWorld.disk 7) = 0 ∧ childAt (freshWorld.disk 7) 0 = 0 ∧ 0 < 2 ^ 32 ∧
      1620 ≤ freshWorld.bSize :=
  bnodeBinInsert_insertedAt_iff (by decide) (EntryPtr.pointsTo_bubble _ _ _)

/-- A second entry does not go into a node. -/
theorem bnodeBinInsert_oneEntry :
    nodeLength (oneEntryWorld.disk 7) = 1 ∧
      idAt (oneEntryWorld.disk 7) (bnodeGetEntry 0) ≠ be32ToCpu (bubbleMake 9 8 0).entry.id ∧
      ¬ ∃ addr w' i, (bnodeBinInsert 7 .bubble (bubbleMake 9 8 0) 0).run oneEntryWorld =
        .ok (some addr) w' ∧
        InsertedAt (oneEntryWorld.disk 7) (w'.disk 7) (bubbleMake 9 8 0).entry 0 i := by
  refine ⟨by decide, by decide, ?_⟩
  rintro ⟨addr, w', i, hok, -⟩
  obtain ⟨f, hrun⟩ := run_bnodeBinInsert_entries (s := 7) (w := oneEntryWorld) .bubble
    (bubbleMake 9 8 0) 0 (by decide) (by decide)
  rw [hrun] at hok
  cases hok

end Spfs
