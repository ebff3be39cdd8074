-- SUMMARY: Directories filled by spfs_add_child, and when the traversal visits exactly the children that were added.
import Spfs.Dir.AddChild
import Spfs.Dir.Visits
import Spfs.Mkfs

/-!
# What was added

All children of a directory go to one block until it counts 100 of them, and the next one
goes to a new block that takes the place of the old one. The writer leaves the second half
of each slot as it was, so the reader finds the ids between the words that were there
before.
-/

namespace Spfs

/-- The state after children were added one after the other, each with the result 0. -/
inductive Adds (env : Env) (p : ℕ) (w₀ : World) : List ℕ → World → Prop where
  | nil : Adds env p w₀ [] w₀
  | snoc {ids : List ℕ} {id : ℕ} {w w' : World} : Adds env p w₀ ids w →
      (spfsAddChild env p id).run w = .ok 0 w' → Adds env p w₀ (ids ++ [id]) w'

/-- The callback that collects the children and never stops. -/
def collectChild : ForAllCb (List (Option ℕ)) :=
  fun children child => return (children ++ [child], true)

/-- The directory lists exactly the ids: a traversal returns 0 and visits them in order,
and the capacity is their number. -/
structure ListsExactly (env : Env) (p : ℕ) (ids : List ℕ) (w : World) : Prop where
  visits : ∃ w', (spfsForAllChildren env collectChild p []).run w = .ok (0, ids.map some) w'
  capacity : (w.inodes p).map SpfsInode.capacity = some ids.length

/-- The block after ids were written to its slots from the first one on. -/
def withSlots (bSize : ℕ) (ids : List ℕ) (b : Block) : Block :=
  ids.zipIdx.foldl (fun b (id, idx) => withSlot bSize idx id b) b

/-- The second half of slot `idx`, which the writer leaves as it was. -/
def staleWord (old : Block) (idx : ℕ) : ℕ := beDecode (old.read (12 + idx * 8 + 4) 4)

/-- The words that a reader meets in slots with the ids. -/
def slotWords (ids : List ℕ) (old : Block) : List ℕ :=
  ids.zipIdx.flatMap fun (id, idx) => [id, staleWord old idx]

/-- Among the words that a reader comes to, those that are not zero begin with the ids. -/
def ReadsBack (bSize : ℕ) (ids : List ℕ) (old : Block) : Prop :=
  ids <+: ((slotWords ids old).take ((bSize - 16) / 4)).filter (· ≠ 0)

instance (bSize : ℕ) (ids : List ℕ) (old : Block) : Decidable (ReadsBack bSize ids old) :=
  inferInstanceAs (Decidable (_ <+: _))

section Slots

variable {bSize : ℕ} {ids : List ℕ} {b b' : Block}

theorem withSlots_snoc (bSize : ℕ) (ids : List ℕ) (id : ℕ) (b : Block) :
    withSlots bSize (ids ++ [id]) b = withSlot bSize ids.length id (withSlots bSize ids b) := by
  rw [withSlots, List.zipIdx_append, List.foldl_append]
  simp only [List.zipIdx_singleton, List.foldl_cons, List.foldl_nil, Nat.zero_add]
  rfl

/-- The blocks agree from a position on. -/
def SameFrom (pos : ℕ) (b b' : Block) : Prop := ∀ j, pos ≤ j → b j = b' j

theorem SameFrom.read (h : SameFrom 12 b b') {pos len : ℕ} (hpos : 12 ≤ pos) :
    b.read pos len = b'.read pos len := by
  apply List.map_congr_left
  intro j _
  exact h (pos + j) (by omega)

theorem SameFrom.entries (h : SameFrom 12 b b') :
    entriesFrom bSize b 12 = entriesFrom bSize b' 12 := by
  rw [entriesFrom, entriesFrom]
  congr 1
  apply List.map_congr_left
  intro j _
  rw [h.read (by omega)]

theorem SameFrom.withSlot (h : SameFrom 12 b b') (bSize idx child : ℕ) :
    SameFrom 12 (withSlot bSize idx child b) (withSlot bSize idx child b') := by
  intro j hj
  rw [Spfs.withSlot, Spfs.withSlot]
  split
  · simp only [Block.write, h j hj]
  · exact h j hj

theorem sameFrom_withDir (block : DirBlock) (b : Block) : SameFrom 12 (withDir block b) b :=
  fun j hj => Block.write_apply_of_ge (by simpa [dirFields] using hj)

theorem slotWords_snoc (ids : List ℕ) (id : ℕ) (old : Block) :
    slotWords (ids ++ [id]) old = slotWords ids old ++ [id, staleWord old ids.length] := by
  rw [slotWords, List.zipIdx_append, List.flatMap_append, List.zipIdx_singleton, Nat.zero_add]
  rfl

theorem length_slotWords (ids : List ℕ) (old : Block) : (slotWords ids old).length = 2 * ids.length := by
  induction ids using List.reverseRecOn with
  | nil => rfl
  | append_singleton ids id ih =>
    rw [slotWords_snoc, List.length_append, ih, List.length_append]
    rfl

/-- All ids are among the words. -/
theorem ids_sublist_slotWords (ids : List ℕ) (old : Block) : ids.Sublist (slotWords ids old) := by
  induction ids using List.reverseRecOn with
  | nil => exact List.Sublist.refl _
  | append_singleton ids id ih =>
    rw [slotWords_snoc]
    exact ih.append (List.sublist_append_left [id] _)

/-- The writer leaves the second halves of the slots. -/
theorem read_withSlots_stale (bSize : ℕ) (ids : List ℕ) (old : Block) (idx : ℕ) :
    (withSlots bSize ids old).read (12 + idx * 8 + 4) 4 = old.read (12 + idx * 8 + 4) 4 := by
  induction ids using List.reverseRecOn with
  | nil => rfl
  | append_singleton ids id ih =>
    rw [withSlots_snoc, Spfs.withSlot]
    split
    · rw [Block.read_write_of_disjoint (by rw [length_beEncode]; omega), ih]
    · exact ih

/-- An id stands in its slot, if the slot is inside of the block. -/
theorem read_withSlots (old : Block) {idx : ℕ} (hidx : idx < ids.length)
    (hfits : 12 + idx * 8 + 8 ≤ bSize) :
    beDecode ((withSlots bSize ids old).read (12 + idx * 8) 4) = ids[idx] % 2 ^ 32 := by
  induction ids using List.reverseRecOn with
  | nil => exact absurd hidx (Nat.not_lt_zero idx)
  | append_singleton ids id ih =>
    rw [withSlots_snoc, Spfs.withSlot]
    rcases Nat.lt_or_ge idx ids.length with hlt | hge
    · rw [List.getElem_append_left hlt]
      split
      · rw [Block.read_write_of_disjoint (by rw [length_beEncode]; omega)]
        exact ih hlt
      · exact ih hlt
    · obtain rfl : idx = ids.length := by
        rw [List.length_append, List.length_singleton] at hidx
        omega
      rw [if_pos hfits, Block.read_write_same (length_beEncode 4 id), beDecode_beEncode,
        List.getElem_concat_length]
      · rfl
      · rfl

theorem getElem_slotWords_id (old : Block) {idx : ℕ} (h : idx < ids.length) :
    (slotWords ids old)[2 * idx]? = some ids[idx] := by
  induction ids using List.reverseRecOn with
  | nil => exact absurd h (Nat.not_lt_zero idx)
  | append_singleton ids id ih =>
    rw [slotWords_snoc]
    rcases Nat.lt_or_ge idx ids.length with hlt | hge
    · rw [List.getElem?_append_left (by rw [length_slotWords]; omega), ih hlt,
        List.getElem_append_left hlt]
    · obtain rfl : idx = ids.length := by
        rw [List.length_append, List.length_singleton] at h
        omega
      rw [List.getElem?_append_right (by rw [length_slotWords]), length_slotWords, Nat.sub_self,
        List.getElem_concat_length rfl]
      rfl

theorem getElem_slotWords_stale (old : Block) {idx : ℕ} (h : idx < ids.length) :
    (slotWords ids old)[2 * idx + 1]? = some (staleWord old idx) := by
  induction ids using List.reverseRecOn with
  | nil => exact absurd h (Nat.not_lt_zero idx)
  | append_singleton ids id ih =>
    rw [slotWords_snoc]
    rcases Nat.lt_or_ge idx ids.length with hlt | hge
    · rw [List.getElem?_append_left (by rw [length_slotWords]; omega), ih hlt]
    · obtain rfl : idx = ids.length := by
        rw [List.length_append, List.length_singleton] at h
        omega
      rw [List.getElem?_append_right (by rw [length_slotWords]; omega), length_slotWords,
        Nat.add_sub_cancel_left]
      rfl

/-- A reader meets the words of the slots first. -/
theorem take_wordsFrom (bSize : ℕ) (hids : ∀ id ∈ ids, id < 2 ^ 32) (old : Block) :
    (wordsFrom bSize (withSlots bSize ids old) 12).take (2 * ids.length) =
      (slotWords ids old).take ((bSize - 16) / 4) := by
  apply List.ext_getElem?
  intro k
  rw [List.getElem?_take, List.getElem?_take, wordsFrom, List.getElem?_map]
  have hcount : (bSize - 4 - 12) / 4 = (bSize - 16) / 4 := by omega
  rw [hcount]
  by_cases hk : k < 2 * ids.length
  · by_cases hin : k < (bSize - 16) / 4
    · rw [if_pos hk, if_pos hin, List.getElem?_range hin]
      have hparity : ∃ idx, k = 2 * idx ∨ k = 2 * idx + 1 := ⟨k / 2, by omega⟩
      obtain ⟨idx, rfl | rfl⟩ := hparity
      · have hidx : idx < ids.length := by omega
        have hpos : 12 + 4 * (2 * idx) = 12 + idx * 8 := by omega
        rw [getElem_slotWords_id old hidx]
        show some (beDecode ((withSlots bSize ids old).read (12 + 4 * (2 * idx)) 4)) = _
        rw [hpos, read_withSlots old hidx (by omega), Nat.mod_eq_of_lt (hids _ (List.getElem_mem hidx))]
      · have hidx : idx < ids.length := by omega
        have hpos : 12 + 4 * (2 * idx + 1) = 12 + idx * 8 + 4 := by omega
        rw [getElem_slotWords_stale old hidx]
        show some (beDecode ((withSlots bSize ids old).read (12 + 4 * (2 * idx + 1)) 4)) = _
        rw [hpos, read_withSlots_stale]
        rfl
    · rw [if_pos hk, if_neg hin, List.getElem?_eq_none (by simpa using hin)]
      rfl
  · have hnone : (slotWords ids old)[k]? = none :=
      List.getElem?_eq_none (by rw [length_slotWords]; omega)
    rw [if_neg hk, hnone, ite_self]

/-- The first words that are taken for ids are the ids exactly when they read back. -/
theorem take_entriesFrom_iff (hids : ∀ id ∈ ids, id ≠ 0 ∧ id < 2 ^ 32) (old : Block) :
    (entriesFrom bSize (withSlots bSize ids old) 12).take ids.length = ids ↔
      ReadsBack bSize ids old := by
  set words := wordsFrom bSize (withSlots bSize ids old) 12 with hwords
  have hlen : words.length = (bSize - 16) / 4 := by
    rw [hwords, wordsFrom, List.length_map, List.length_range]
    omega
  have htake := take_wordsFrom bSize (fun id hid => (hids id hid).2) old
  have hsplit : entriesFrom bSize (withSlots bSize ids old) 12 =
      ((slotWords ids old).take ((bSize - 16) / 4)).filter (· ≠ 0) ++
        (words.drop (2 * ids.length)).filter (· ≠ 0) := by
    rw [← htake, ← List.filter_append, List.take_append_drop]
    rfl
  rw [ReadsBack, List.prefix_iff_eq_take, hsplit, eq_comm]
  rcases Nat.le_total ((bSize - 16) / 4) (2 * ids.length) with hshort | hlong
  · have hdrop : words.drop (2 * ids.length) = [] := List.drop_eq_nil_of_le (by omega)
    rw [hdrop, List.filter_nil, List.append_nil]
  · have hall : (slotWords ids old).take ((bSize - 16) / 4) = slotWords ids old :=
      List.take_of_length_le (by rw [length_slotWords]; exact hlong)
    have hsub : ids.Sublist ((slotWords ids old).filter (· ≠ 0)) := by
      have hfilter := (ids_sublist_slotWords ids old).filter (· ≠ 0)
      rwa [List.filter_eq_self.mpr (fun id hid => by simpa using (hids id hid).1)] at hfilter
    rw [hall, List.take_append_of_le_length hsub.length_le]

end Slots

/-! ## What the additions leave -/

/-- After at least one addition: the directory `i` starts at the block `s` that counts `m`
children, and up to 100 children are all there. -/
structure Filled (p : ℕ) (i : SpfsInode) (w₀ : World) (ids : List ℕ) (w : World) (s m : ℕ) : Prop where
  bSize : w.bSize = w₀.bSize
  dir : w.inodes p = some { i with capacity := ids.length % 2 ^ 32, iDirty := true, start := s }
  others : ∀ q ≠ p, w.inodes q = w₀.inodes q
  start_ne : s ≠ 0
  header : DirAt (w.disk s) ⟨0, m⟩
  count : m ≤ 100
  small : ids.length ≤ 100 → m = ids.length ∧ s = (spfsFreeAlloc w₀.sbi.freeList 1).1 ∧
    SameFrom 12 (w.disk s) (withSlots w₀.bSize ids (w₀.disk s))

section Runs

variable {env : Env} {p s m id : ℕ} {i : SpfsInode} {w₀ w w' : World} {ids : List ℕ}

theorem SameFrom.trans {pos : ℕ} {b b' b'' : Block} (h : SameFrom pos b b') (h' : SameFrom pos b' b'') :
    SameFrom pos b b'' :=
  fun j hj => (h j hj).trans (h' j hj)

/-- The first child. -/
theorem filled_first (hp : w₀.inodes p = some i) (hstart : i.start = 0) (hcap : i.capacity = 0)
    (hlock : i.lock = false) (h : (spfsAddChild env p id).run w₀ = .ok 0 w') :
    ∃ s, Filled p i w₀ [id] w' s 1 := by
  have hcall := spfsAddChild_call env id hp hlock
  rw [h] at hcall
  generalize hplace : placeIn env w₀ i = place at hcall
  cases hcall with
  | slot => exact absurd hstart (start_ne_of_slot hplace)
  | @fresh s _ hs hsel hstep hbal =>
    have hempty : DirAt (withDir ⟨0, 0⟩ (w₀.disk s)) ⟨0, 0⟩ :=
      dirAt_withDir _ (Nat.two_pow_pos 32) (Nat.two_pow_pos 32)
    have hdisk : w'.disk s = withChild w₀.bSize ⟨0, 0⟩ id (withDir ⟨0, 0⟩ (w₀.disk s)) := by
      rw [hstep.disk, Function.update_self]
    refine ⟨s, hstep.bSize, ?_, hstep.others, hs, ?_, by omega, fun _ => ⟨rfl, hsel, ?_⟩⟩
    · rw [hstep.inodes, Function.update_self, SpfsInode.withOneMore, hcap]
      rfl
    · rw [hdisk]
      exact dirAt_withChild hempty _ _
    · rw [hdisk]
      exact (sameFrom_withDir _ _).trans ((sameFrom_withDir _ _).withSlot _ _ _)

/-- One more child. -/
theorem Filled.snoc (hf : Filled p i w₀ ids w s m) (hlock : i.lock = false)
    (h : (spfsAddChild env p id).run w = .ok 0 w') : ∃ s' m', Filled p i w₀ (ids ++ [id]) w' s' m' := by
  have hcall := spfsAddChild_call env id hf.dir hlock
  rw [h] at hcall
  generalize hplace : placeIn env w _ = place at hcall
  have hplaces := placeIn_of_start env (i := { i with
    capacity := ids.length % 2 ^ 32, iDirty := true, start := s }) hf.start_ne hf.header
  have hcount : ((ids.length % 2 ^ 32) + 1) % 2 ^ 32 = (ids ++ [id]).length % 2 ^ 32 := by
    rw [List.length_append, List.length_singleton]
    omega
  have hle := hf.count
  rw [hplace] at hplaces
  cases hcall with
  | @slot s' block _ hs hdir hfull hfit hstep hbal =>
    rcases hplaces with hplace | hplace | ⟨hnot, hplace⟩ | ⟨-, n, t, hplace⟩
    · cases hplace
    · cases hplace
    · cases hplace
      have hothers : ∀ q ≠ p, w'.inodes q = w₀.inodes q := fun q hq =>
        (hstep.others q hq).trans (hf.others q hq)
      have hm : m ≠ 100 := by simpa [spfsDirIsFull] using hnot
      have hnext : (m + 1) % 2 ^ 32 = m + 1 := by omega
      have hdisk : w'.disk s = withChild w.bSize ⟨0, m⟩ id (w.disk s) := by
        rw [hstep.disk, Function.update_self]
      refine ⟨s, m + 1, hstep.bSize.trans hf.bSize, ?_, hothers, hs, ?_, by omega, fun hshort => ?_⟩
      · rw [hstep.inodes, Function.update_self, SpfsInode.withOneMore, hcount]
      · rw [hdisk, ← hnext]
        exact dirAt_withChild hf.header _ _
      · rw [List.length_append, List.length_singleton] at hshort
        obtain ⟨rfl, hsel, hsame⟩ := hf.small (by omega)
        refine ⟨by rw [List.length_append, List.length_singleton], hsel, ?_⟩
        rw [hdisk, withSlots_snoc, hf.bSize]
        exact (sameFrom_withDir _ _).trans (hsame.withSlot _ _ _)
    · rw [addPlace_zero, endPlace] at hplace
      split at hplace <;> cases hplace
  | @fresh s' _ hs hsel hstep hbal =>
    rcases hplaces with hplace | hplace | ⟨-, hplace⟩ | ⟨hfull, -⟩
    · cases hplace
    · cases hplace
    · cases hplace
    · have hothers : ∀ q ≠ p, w'.inodes q = w₀.inodes q := fun q hq =>
        (hstep.others q hq).trans (hf.others q hq)
      have hm : m = 100 := by simpa [spfsDirIsFull] using hfull
      have hempty : DirAt (withDir ⟨0, 0⟩ (w.disk s')) ⟨0, 0⟩ :=
        dirAt_withDir _ (Nat.two_pow_pos 32) (Nat.two_pow_pos 32)
      refine ⟨s', 1, hstep.bSize.trans hf.bSize, ?_, hothers, hs, ?_, by omega, fun hshort => ?_⟩
      · rw [hstep.inodes, Function.update_self, SpfsInode.withOneMore, hcount]
      · rw [hstep.disk, Function.update_self]
        exact dirAt_withChild hempty _ _
      · -- a full block was the only one of a directory with 100 children or more
        rw [List.length_append, List.length_singleton] at hshort
        have hlen := (hf.small (by omega)).1
        omega

/-- What a sequence of additions to an empty directory leaves. -/
theorem Adds.filled (h : Adds env p w₀ ids w) (hp : w₀.inodes p = some i) (hstart : i.start = 0)
    (hcap : i.capacity = 0) (hlock : i.lock = false) :
    (ids = [] ∧ w = w₀) ∨ ∃ s m, Filled p i w₀ ids w s m := by
  induction h with
  | nil => exact .inl ⟨rfl, rfl⟩
  | @snoc ids id w w' _ hadd ih =>
    rcases ih with ⟨rfl, rfl⟩ | ⟨s, m, hf⟩
    · obtain ⟨s, hf⟩ := filled_first hp hstart hcap hlock hadd
      exact .inr ⟨s, 1, hf⟩
    · exact .inr (hf.snoc hlock hadd)

/-! ## The traversal -/

theorem keepsStore_collectChild : KeepsStore collectChild := fun _ _ => EStateM.Within.pure _

theorem actsAs_collectChild (env : Env) (p : ℕ) (ids : List ℕ) (G : World → Prop) :
    ActsAs env collectChild (fun children id => (children ++ [some id], true)) p ids G :=
  fun _ w _ _ _ _ _ hG => ⟨w, rfl, hG, refl_of (KeepsDir p) w⟩

theorem foldIds_collect (ids : List ℕ) (children : List (Option ℕ)) :
    foldIds (fun children id => (children ++ [some id], true)) ids children =
      (children ++ ids.map some, true) := by
  induction ids generalizing children with
  | nil => rw [foldIds, List.map_nil, List.append_nil]
  | cons id ids ih =>
    rw [foldIds]
    simp only [Bool.not_true, Bool.false_eq_true, if_false]
    rw [ih, List.map_cons, List.append_assoc]
    rfl

/-- What is collected are some of the ids in order. -/
theorem visitAll_collect {children : List (Option ℕ)} {r : List (Option ℕ) × Bool}
    (h : (visitAll env collectChild ids children).run w = .ok r w') :
    r.2 = true ∧ ∃ visited, r.1 = children ++ visited ∧ (visited.filterMap fun v => v).Sublist ids := by
  induction ids generalizing children w with
  | nil =>
    cases h
    exact ⟨rfl, [], (List.append_nil _).symm, List.Sublist.refl _⟩
  | cons id ids ih =>
    rw [visitAll] at h
    obtain ⟨found, w₁, hlookup, hrun⟩ := EStateM.run_bind_eq_ok.mp h
    cases found with
    | error e =>
      obtain ⟨hmore, visited, heq, hsub⟩ := ih hrun
      exact ⟨hmore, visited, heq, hsub.cons id⟩
    | ok child =>
      have hrest : (visitAll env collectChild ids (children ++ [child])).run w₁ = .ok r w' := hrun
      obtain ⟨hmore, visited, heq, hsub⟩ := ih hrest
      refine ⟨hmore, child :: visited, by rw [heq, List.append_assoc]; rfl, ?_⟩
      cases child with
      | none => exact hsub.cons id
      | some q =>
        obtain rfl : q = id := spfsInodeById_pointer env hlookup
        exact hsub.cons_cons q

/-- A traversal that visits exactly the ids visits all that the block counts, when those
are no more than the ids. -/
theorem Filled.take_of_visits {w' : World} (hf : Filled p i w₀ ids w s m)
    (hio : ∀ t s, env.ioOk t s = true) (hlock : i.lock = false)
    (h : (spfsForAllChildren env collectChild p []).run w = .ok (0, ids.map some) w') :
    m ≤ (entriesFrom w.bSize (w.disk s) 12).length ∧
      ids.Sublist ((entriesFrom w.bSize (w.disk s) 12).take m) := by
  set j : SpfsInode := { i with capacity := ids.length % 2 ^ 32, iDirty := true, start := s }
  rw [spfsForAllChildren, EStateM.run_bind_of_ok (run_getInode_of hf.dir)] at h
  obtain ⟨_, w₁, hsuper, hrun⟩ := EStateM.run_bind_eq_ok.mp h
  have hsame : w = w₁ := (within_superOf (R := Eq) j).of_ok hsuper
  subst hsame
  split at hrun
  · cases hrun
  rw [EStateM.run_bind_of_ok (run_mutexLock_of hf.dir hlock)] at hrun
  set w₁ := (w.setInode p { j with lock := true }).addEvent (.lock p)
  obtain ⟨r, w₂, hlit, hrun₂⟩ := EStateM.run_bind_eq_ok.mp hrun
  obtain ⟨_, w₃, -, hrun₃⟩ := EStateM.run_bind_eq_ok.mp hrun₂
  cases hrun₃
  have hstart : j.start ≠ 0 := hf.start_ne
  have hdir : DirAt (w₁.disk j.start) ⟨0, m⟩ := hf.header
  cases hfuel : env.fuel with
  | zero =>
    rw [hfuel, spfsForAllChildrenLit] at hlit
    · cases hlit
    · exact hstart
  | succ n =>
    rw [hfuel, spfsForAllChildrenLit_block keepsStore_collectChild hstart (hio _ _) hdir] at hlit
    obtain ⟨r, w₄, hvisit, hrun₄⟩ := EStateM.run_bind_eq_ok.mp hlit
    obtain ⟨hmore, visited, heq, hsub⟩ := visitAll_collect hvisit
    rw [hmore, if_neg (by simp)] at hrun₄
    split at hrun₄
    next hcount =>
      obtain ⟨_, w₅, -, hrun₅⟩ := EStateM.run_bind_eq_ok.mp hrun₄
      dsimp only at hrun₅
      rw [spfsForAllChildrenLit_zero] at hrun₅
      injection hrun₅ with hres
      have hvisited : visited = ids.map some := by
        have hfst := congrArg Prod.snd hres
        rw [heq] at hfst
        exact hfst
      have hids : visited.filterMap (fun v => v) = ids := by
        rw [hvisited, List.filterMap_map]
        exact List.filterMap_some
      rw [hids] at hsub
      exact ⟨hcount, hsub⟩
    · injection hrun₄ with hres
      have hcode : - EINVAL = 0 := congrArg Prod.fst hres
      exact absurd hcode (by decide)

/-- A traversal that visits exactly the ids reads them back. -/
theorem Filled.readsBack (hf : Filled p i w₀ ids w s m) (hio : ∀ t s, env.ioOk t s = true)
    (hlock : i.lock = false) (hids : ∀ id ∈ ids, id ≠ 0 ∧ id < 2 ^ 32)
    (h : (spfsForAllChildren env collectChild p []).run w = .ok (0, ids.map some) w') :
    ids.length ≤ 100 ∧ ReadsBack w₀.bSize ids (w₀.disk (spfsFreeAlloc w₀.sbi.freeList 1).1) := by
  obtain ⟨hle, hsub⟩ := hf.take_of_visits hio hlock h
  have hcount := hf.count
  have hlen := hsub.length_le
  rw [List.length_take] at hlen
  have hshort : ids.length ≤ 100 := by omega
  obtain ⟨rfl, rfl, hsame⟩ := hf.small hshort
  refine ⟨hshort, (take_entriesFrom_iff hids _).mp ?_⟩
  rw [← hsame.entries, ← hf.bSize]
  exact (hsub.eq_of_length_le (by rw [List.length_take]; omega)).symm

/-- A directory that was filled from empty lists exactly its children when there are at most
100 of them and they read back from the block that the first of them allocated. -/
theorem spfsAddChild_listsExactly_iff {G : World → Prop} (hio : ∀ t s, env.ioOk t s = true)
    (hfuel : env.fuel ≠ 0) (hp : w₀.inodes p = some i) (hsb : i.iSb = .sb)
    (hmode : sIsDir i.iMode = true) (hstart : i.start = 0) (hcap : i.capacity = 0)
    (hlock : i.lock = false) (hids : ∀ id ∈ ids, id ≠ 0 ∧ id < 2 ^ 32) (h : Adds env p w₀ ids w)
    (hresolves : Resolves env p ids G) (hG : G w) :
    ListsExactly env p ids w ↔ ids = [] ∨ (ids.length ≤ 100 ∧
      ReadsBack w₀.bSize ids (w₀.disk (spfsFreeAlloc w₀.sbi.freeList 1).1)) := by
  have hacts := actsAs_collectChild env p ids G
  have hstore := keepsStore_collectChild
  rcases h.filled hp hstart hcap hlock with ⟨rfl, rfl⟩ | ⟨s, m, hf⟩
  · refine iff_of_true ⟨?_, ?_⟩ (.inl rfl)
    · have hlists : DirLists w.bSize w.disk i.start [] := by
        rw [hstart]
        exact .nil
      obtain ⟨w', hrun, -⟩ := run_spfsForAllChildren_of_resolves hio hstore hp hsb hmode hlock hlists
        (Nat.zero_le _) hresolves hacts hG []
      exact ⟨w', hrun⟩
    · rw [hp, Option.map_some, hcap]
      rfl
  constructor
  · rintro ⟨⟨w', hrun⟩, -⟩
    exact .inr (hf.readsBack hio hlock hids hrun)
  · intro hcond
    have hback : ids.length ≤ 100 ∧ ReadsBack w₀.bSize ids (w₀.disk (spfsFreeAlloc w₀.sbi.freeList 1).1) := by
      rcases hcond with rfl | hback
      · exact ⟨Nat.zero_le _, List.nil_prefix⟩
      · exact hback
    obtain ⟨hshort, hback⟩ := hback
    obtain ⟨rfl, rfl, hsame⟩ := hf.small hshort
    set s := (spfsFreeAlloc w₀.sbi.freeList 1).1
    have htake : (entriesFrom w.bSize (w.disk s) 12).take ids.length = ids := by
      rw [hf.bSize, hsame.entries]
      exact (take_entriesFrom_iff hids _).mpr hback
    have hle : ids.length ≤ (entriesFrom w.bSize (w.disk s) 12).length := by
      have hlen := congrArg List.length htake
      rw [List.length_take] at hlen
      omega
    have hlists : DirLists w.bSize w.disk s [(s, ids)] := by
      have hcons := DirLists.cons hf.start_ne hf.header hle .nil
      rwa [htake] at hcons
    have hlisted : listedIds [(s, ids)] = ids := List.append_nil ids
    rw [← hlisted] at hresolves hacts
    obtain ⟨w', hrun, -⟩ := run_spfsForAllChildren_of_resolves hio hstore hf.dir hsb hmode hlock hlists
      (Nat.one_le_iff_ne_zero.mpr hfuel) hresolves hacts hG []
    rw [hlisted, foldIds_collect] at hrun
    refine ⟨⟨w', hrun⟩, ?_⟩
    rw [hf.dir, Option.map_some]
    exact congrArg some (Nat.mod_eq_of_lt (by omega))

/-! ## Additions that succeed -/

/-- The first child of a directory goes to a block that can be had. -/
theorem adds_first (hio : ∀ t s, env.ioOk t s = true) (hp : w₀.inodes p = some i)
    (hstart : i.start = 0) (hlock : i.lock = false)
    (halloc : (spfsFreeAlloc w₀.sbi.freeList 1).1 ≠ 0) (id : ℕ) :
    ∃ w', (spfsAddChild env p id).run w₀ = .ok 0 w' := by
  have hcall := spfsAddChild_call env id hp hlock
  have hplace : placeIn env w₀ i = .fresh (spfsFreeAlloc w₀.sbi.freeList 1).1 := by
    rw [placeIn, hstart, addPlace_zero, endPlace]
    exact if_pos ⟨halloc, hio _ _⟩
  rw [hplace] at hcall
  generalize (spfsAddChild env p id).run w₀ = r at hcall ⊢
  cases hcall with
  | fresh => exact ⟨_, rfl⟩

/-- The next child goes to the block, as long as there is a slot. -/
theorem Filled.adds (hf : Filled p i w₀ ids w s m) (hio : ∀ t s, env.ioOk t s = true)
    (hfuel : env.fuel ≠ 0) (hlock : i.lock = false) (hm : m < 100) (hfit : 12 + m * 8 ≤ w.bSize)
    (id : ℕ) : ∃ w', (spfsAddChild env p id).run w = .ok 0 w' := by
  have hcall := spfsAddChild_call env id hf.dir hlock
  have hnot : spfsDirIsFull ⟨0, m⟩ = false := by
    rw [spfsDirIsFull]
    exact beq_eq_false_iff_ne.mpr (Nat.ne_of_lt hm)
  have hplace : placeIn env w { i with
      capacity := ids.length % 2 ^ 32, iDirty := true, start := s } = .slot s ⟨0, m⟩ := by
    obtain ⟨n, hn⟩ := Nat.exists_eq_succ_of_ne_zero hfuel
    rw [placeIn, hn, addPlace_of_ne hf.start_ne, hio, if_neg (by simp),
      if_neg (not_not.mpr hf.header.magic), hf.header.eq, hnot]
    rfl
  rw [hplace] at hcall
  generalize (spfsAddChild env p id).run w = r at hcall ⊢
  cases hcall with
  | slot => exact ⟨_, rfl⟩
  | bug hout => exact absurd hfit (Nat.not_le.mpr hout)

end Runs

/-! ## A block that was used before -/

/-- A block with a number in the second half of the first slot. -/
def usedBlock : Block := fun a => if a = 19 then 7 else 0

/-- A file that is in the cache. -/
def cachedFile (ino : ℕ) : SpfsInode := { plainFile ino with iHashed := true, iCount := 1 }

theorem findable_cachedFile (ids : List ℕ) : Findable cachedFile ids := by
  intro id _
  refine ⟨?_, rfl⟩
  rw [SpfsInode.isCached]
  simp [cachedFile, plainFile]

/-- An empty directory and two files in the cache, on a device whose next free block was
used before. -/
def usedWorld : World :=
  (((freshWorld.setBlock 101 usedBlock).setInode 1 (plainDir 1)).setInode 5 (cachedFile 5)).setInode 6
    (cachedFile 6)

/-- Two children are added, and both of them can be looked up after it. -/
theorem adds_usedWorld : ∃ w s m, Adds (.calm 9) 1 usedWorld [5, 6] w ∧
    Filled 1 (plainDir 1) usedWorld [5, 6] w s m ∧ AllCached cachedFile [5, 6] w := by
  have hio : ∀ t s, (Env.calm 9).ioOk t s = true := fun _ _ => rfl
  have hp : usedWorld.inodes 1 = some (plainDir 1) := rfl
  obtain ⟨w₁, hadd₁⟩ := adds_first hio hp rfl rfl (by decide) 5
  obtain ⟨s₁, hf₁⟩ := filled_first hp rfl rfl rfl hadd₁
  have hfit : 12 + 1 * 8 ≤ w₁.bSize := by
    rw [hf₁.bSize]
    decide
  obtain ⟨w₂, hadd₂⟩ := hf₁.adds hio (by decide) rfl (by decide) hfit 6
  obtain ⟨s, m, hf⟩ := hf₁.snoc rfl hadd₂
  refine ⟨w₂, s, m, .snoc (.snoc .nil hadd₁) hadd₂, hf, ?_⟩
  intro id hid
  rcases List.mem_pair.mp hid with rfl | rfl
  · exact ⟨1, false, hf.others 5 (by decide)⟩
  · exact ⟨1, false, hf.others 6 (by decide)⟩

theorem spfsAddChild_listsExactly_iff_used :
    ∃ w, Adds (.calm 9) 1 usedWorld [5, 6] w ∧
      (ListsExactly (.calm 9) 1 [5, 6] w ↔ [5, 6] = [] ∨ ([5, 6].length ≤ 100 ∧
        ReadsBack usedWorld.bSize [5, 6]
          (usedWorld.disk (spfsFreeAlloc usedWorld.sbi.freeList 1).1))) := by
  obtain ⟨w, s, m, hadds, -, hcached⟩ := adds_usedWorld
  exact ⟨w, hadds, spfsAddChild_listsExactly_iff (i := plainDir 1) (fun _ _ => rfl) (by decide) rfl rfl
    (by decide) rfl rfl rfl (by decide) hadds (resolves_allCached _ 1 (findable_cachedFile _)) hcached⟩

/-- The number that was in the block is visited in the place of the second child. -/
theorem not_listsExactly_used :
    ∃ w, Adds (.calm 9) 1 usedWorld [5, 6] w ∧
      Resolves (.calm 9) 1 [5, 6] (AllCached cachedFile [5, 6]) ∧ AllCached cachedFile [5, 6] w ∧
      ¬ ListsExactly (.calm 9) 1 [5, 6] w := by
  obtain ⟨w, s, m, hadds, hf, hcached⟩ := adds_usedWorld
  refine ⟨w, hadds, resolves_allCached _ 1 (findable_cachedFile _), hcached, ?_⟩
  rintro ⟨⟨w', hrun⟩, -⟩
  have hback := (hf.readsBack (fun _ _ => rfl) rfl (by decide) hrun).2
  have hwords : ¬ ReadsBack 4096 [5, 6] usedBlock := by decide
  exact hwords hback

end Spfs
