-- SUMMARY: btree.c: the search inside a node, and exactly when it ends.
import Mathlib.Data.Nat.Log
import Spfs.Btree.Node
import Spfs.Mkfs

/-!
# Searching a node

`bnode_bin_find_gte` keeps a window of entries and halves it. Its length is taken
in bytes and then added to a pointer to entries, so the window does not shrink:
each step to the left makes it eight times as long, and a step to the right turns
it around and leaves the block. A search therefore ends in one of two ways
(`run_bnodeBinFindGte`): at an entry with the id it looks for, or outside of the
block.
-/

namespace Spfs

/-- The distance of two pointers to entries, in bytes. -/
def spfsPtrLength (it last : ℕ) : ℕ := (last + 2 ^ 64 - it) % 2 ^ 64

/-- A pointer to entries advanced by `k` of them. -/
def bentryAdd (it k : ℕ) : ℕ := (it + k * sizeofBentry) % 2 ^ 64

/-- The loop `Lit` with the window from `it` to `last`. -/
def bnodeBinFindGteLit (s needle end_ : ℕ) : ℕ → ℕ → ℕ → Kernel (Option ℕ)
  | 0, _, _ => throw .fuel
  | fuel + 1, it, last => do
    let length := spfsPtrLength it last
    let mid := bentryAdd it (length / 2)
    let id ← bentryId s mid
    if id > needle then
      if length = 0 then
        -- not found: the closest greater one
        return some mid
      bnodeBinFindGteLit s needle end_ fuel it mid
    else if id = needle then
      return some mid
    else if length = 1 then
      let next := bentryAdd it length
      return if next ≠ end_ then some next else none
    else
      bnodeBinFindGteLit s needle end_ fuel mid last

/-- The address of the entry found; `none` stands for the null pointer. No search
makes more steps than the block has bytes. -/
def bnodeBinFindGte (s needle : ℕ) : Kernel (Option ℕ) := do
  let length ← bnodeLength s
  bugOn (length > bnodeCapacity)
  if length = 0 then
    return none
  let end_ := bnodeGetEntry length
  bnodeBinFindGteLit s needle end_ ((← get).bSize + 1) entriesOff end_

/-- `bnode_index_of`: the distance from the first entry, in bytes, cut off at the
capacity of a node. -/
def bnodeIndexOf (needle : ℕ) : ℕ :=
  if entriesOff > needle then
    bnodeCapacity
  else if needle - entriesOff > bnodeCapacity then
    bnodeCapacity
  else
    needle - entriesOff

/-! ## Where a search ends -/

/-- The address of the entry that a search of `n` entries looks at after `j` steps
to the left. -/
def probe (n j : ℕ) : ℕ := entriesOff + n * 8 ^ (j + 1) * sizeofBentry

/-- The search of a node for an id takes `j` steps to the left and then hits it. -/
structure HitAt (bSize : ℕ) (b : Block) (needle j : ℕ) : Prop where
  above : ∀ i < j, needle < idAt b (probe (nodeLength b) i)
  inside : probe (nodeLength b) j + 8 ≤ bSize
  eq : idAt b (probe (nodeLength b) j) = needle

theorem probe_lt {n i j : ℕ} (hn : 1 ≤ n) (h : i < j) : probe n i < probe n j := by
  have hpow : 8 ^ (i + 1) < 8 ^ (j + 1) := Nat.pow_lt_pow_right (by omega) (by omega)
  have := Nat.mul_lt_mul_of_pos_left hpow hn
  simp only [probe, sizeofBentry]
  omega

/-- A search meets no entry twice, so it hits at one place only. -/
theorem HitAt.unique {bSize needle j j' : ℕ} {b : Block} (h : HitAt bSize b needle j)
    (h' : HitAt bSize b needle j') : j = j' := by
  rcases Nat.lt_trichotomy j j' with hlt | heq | hgt
  · have := h'.above j hlt
    have := h.eq
    omega
  · exact heq
  · have := h.above j' hgt
    have := h'.eq
    omega

/-- A search whose first probe falls below the id hits nothing. -/
theorem not_hitAt_of_lt {bSize needle : ℕ} {b : Block}
    (h : idAt b (probe (nodeLength b) 0) < needle) (j : ℕ) : ¬ HitAt bSize b needle j := by
  intro hhit
  cases j with
  | zero =>
    have := hhit.eq
    omega
  | succ j =>
    have := hhit.above 0 (Nat.succ_pos j)
    omega

section Loop

variable {s needle j : ℕ} {w : World}

/-- The `j`-th entry looked at is inside of the block for few `j` only. -/
theorem lt_bSize_of_probe {n : ℕ} (hn : 1 ≤ n)
    (h : ∀ i < j, probe n i + 8 ≤ w.bSize) : j < w.bSize := by
  cases j with
  | zero =>
    have := w.le_bSize
    omega
  | succ i =>
    have hi := h i (Nat.lt_succ_self i)
    have hpow : i + 1 < 8 ^ (i + 1) := Nat.lt_pow_self (by omega)
    have hmul : 8 ^ (i + 1) ≤ n * 8 ^ (i + 1) := Nat.le_mul_of_pos_left _ hn
    simp only [probe, sizeofBentry] at hi
    omega

theorem spfsPtrLength_left {m : ℕ} (hm : m < 2 ^ 32) :
    spfsPtrLength entriesOff (entriesOff + m * sizeofBentry) = m * sizeofBentry := by
  simp only [spfsPtrLength, sizeofBentry]
  omega

theorem spfsPtrLength_turned {m : ℕ} (hm : 1 ≤ m) (hm' : m < 2 ^ 32) :
    spfsPtrLength (entriesOff + m * 8 * sizeofBentry) (entriesOff + m * sizeofBentry) =
      2 ^ 64 - m * 112 := by
  simp only [spfsPtrLength, sizeofBentry]
  omega

/-- The middle of a window of `m` entries from the first one on is eight windows
away. -/
theorem mid_left {m : ℕ} (hm : m < 2 ^ 32) :
    bentryAdd entriesOff (spfsPtrLength entriesOff (entriesOff + m * sizeofBentry) / 2) =
      entriesOff + m * 8 * sizeofBentry := by
  rw [spfsPtrLength_left hm, bentryAdd, sizeofBentry, entriesOff]
  omega

/-- After a step to the right the window is turned around, and its middle lies
before the block. -/
theorem mid_right {m bSize : ℕ} (hm : 1 ≤ m) (hm' : m < 2 ^ 32) (hb : bSize < 2 ^ 32) :
    ¬ bentryAdd (entriesOff + m * 8 * sizeofBentry)
        (spfsPtrLength (entriesOff + m * 8 * sizeofBentry) (entriesOff + m * sizeofBentry) / 2) +
      8 ≤ bSize := by
  have hhalf : (2 ^ 64 - m * 112) / 2 = 2 ^ 63 - m * 56 := by omega
  have hmid : (4 + m * 8 * 16 + (2 ^ 63 - m * 56) * 16) % 2 ^ 64 = 2 ^ 64 - (m * 768 - 4) := by
    omega
  rw [spfsPtrLength_turned hm hm', hhalf, bentryAdd, entriesOff, sizeofBentry, hmid]
  omega

/-- A search that stepped to the right reads outside of the block. -/
theorem run_lit_right (s needle fuel end_ : ℕ) {m : ℕ} (hm : 1 ≤ m) (hm' : m < 2 ^ 32) :
    (bnodeBinFindGteLit s needle end_ (fuel + 1) (entriesOff + m * 8 * sizeofBentry)
      (entriesOff + m * sizeofBentry)).run w = .error .oob w := by
  rw [bnodeBinFindGteLit]
  exact EStateM.run_bind_of_error (run_bentryId_oob (mid_right hm hm' w.bSize_lt))

/-- The loop invariant: the window starts at the first entry, all entries looked at
so far are in the block and greater than the id. -/
theorem run_lit_left (needle fuel end_ : ℕ) (hlen : 1 ≤ nodeLength (w.disk s))
    (hlen' : nodeLength (w.disk s) ≤ 100)
    (hin : ∀ i < j, probe (nodeLength (w.disk s)) i + 8 ≤ w.bSize)
    (habove : ∀ i < j, needle < idAt (w.disk s) (probe (nodeLength (w.disk s)) i))
    (hfuel : w.bSize + 1 ≤ fuel + j) :
    (∃ j', HitAt w.bSize (w.disk s) needle j' ∧
      (bnodeBinFindGteLit s needle end_ fuel entriesOff
        (entriesOff + nodeLength (w.disk s) * 8 ^ j * sizeofBentry)).run w =
          .ok (some (probe (nodeLength (w.disk s)) j')) w) ∨
    ((∀ j', ¬ HitAt w.bSize (w.disk s) needle j') ∧
      (bnodeBinFindGteLit s needle end_ fuel entriesOff
        (entriesOff + nodeLength (w.disk s) * 8 ^ j * sizeofBentry)).run w = .error .oob w) := by
  have hj := lt_bSize_of_probe hlen hin
  induction fuel generalizing j with
  | zero => omega
  | succ fuel ih =>
    set n := nodeLength (w.disk s)
    have hm : 1 ≤ n * 8 ^ j := Nat.mul_pos hlen (Nat.pow_pos (by omega))
    have hm' : n * 8 ^ j < 2 ^ 32 := by
      cases j with
      | zero => omega
      | succ i =>
        have hi := hin i (Nat.lt_succ_self i)
        have hb := w.bSize_lt
        simp only [probe, sizeofBentry] at hi
        omega
    have hprobe : entriesOff + n * 8 ^ j * 8 * sizeofBentry = probe n j := by
      rw [probe, Nat.pow_succ, Nat.mul_assoc n]
    rw [bnodeBinFindGteLit, mid_left hm', hprobe]
    by_cases hinside : probe n j + 8 ≤ w.bSize
    · simp only [EStateM.run_bind_match, EStateM.run_ite, run_bentryId hinside]
      rcases Nat.lt_trichotomy needle (idAt (w.disk s) (probe n j)) with hgt | heq | hlt
      · -- a step to the left
        have hpos : ¬ spfsPtrLength entriesOff (entriesOff + n * 8 ^ j * sizeofBentry) = 0 := by
          rw [spfsPtrLength_left hm', sizeofBentry]
          omega
        have hin' : ∀ i < j + 1, probe n i + 8 ≤ w.bSize := by
          intro i hi
          rcases Nat.lt_succ_iff_lt_or_eq.mp hi with h | rfl
          · exact hin i h
          · exact hinside
        have habove' : ∀ i < j + 1, needle < idAt (w.disk s) (probe n i) := by
          intro i hi
          rcases Nat.lt_succ_iff_lt_or_eq.mp hi with h | rfl
          · exact habove i h
          · exact hgt
        have hnext := ih hin' habove' (by omega) (lt_bSize_of_probe hlen hin')
        rw [Nat.pow_succ, ← Nat.mul_assoc, hprobe] at hnext
        simpa only [if_pos hgt, if_neg hpos] using hnext
      · -- found
        refine .inl ⟨j, ⟨habove, hinside, heq.symm⟩, ?_⟩
        simp [← heq]
      · -- a step to the right
        have hne : idAt (w.disk s) (probe n j) ≠ needle := Nat.ne_of_lt hlt
        have hone : ¬ spfsPtrLength entriesOff (entriesOff + n * 8 ^ j * sizeofBentry) = 1 := by
          rw [spfsPtrLength_left hm', sizeofBentry]
          omega
        refine .inr ⟨fun j' hhit => ?_, ?_⟩
        · have hid : idAt (w.disk s) (probe n j') = needle := hhit.eq
          rcases Nat.lt_trichotomy j' j with h | rfl | h
          · have := habove j' h
            omega
          · exact hne hid
          · have : needle < idAt (w.disk s) (probe n j) := hhit.above j h
            omega
        · cases fuel with
          | zero => omega
          | succ fuel =>
            have hright := run_lit_right (w := w) s needle fuel end_ hm hm'
            rw [hprobe] at hright
            simp only [if_neg (Nat.not_lt.mpr hlt.le), if_neg hne, if_neg hone]
            exact hright
    · simp only [EStateM.run_bind_match, run_bentryId_oob hinside]
      refine .inr ⟨fun j' hhit => ?_, trivial⟩
      have hid : idAt (w.disk s) (probe n j') = needle := hhit.eq
      have hin' : probe n j' + 8 ≤ w.bSize := hhit.inside
      rcases Nat.lt_trichotomy j' j with h | rfl | h
      · have := habove j' h
        omega
      · exact hinside hin'
      · have := probe_lt hlen h
        omega

end Loop

/-- A search that finds nothing in a node with entries does not return. -/
theorem run_bnodeBinFindGte (s needle : ℕ) {w : World} (hlen : 1 ≤ nodeLength (w.disk s))
    (hlen' : nodeLength (w.disk s) ≤ 100) :
    (∃ j, HitAt w.bSize (w.disk s) needle j ∧
      (bnodeBinFindGte s needle).run w = .ok (some (probe (nodeLength (w.disk s)) j)) w) ∨
    ((∀ j, ¬ HitAt w.bSize (w.disk s) needle j) ∧
      (bnodeBinFindGte s needle).run w = .error .oob w) := by
  have hloop := run_lit_left (j := 0) needle (w.bSize + 1) (bnodeGetEntry (nodeLength (w.disk s)))
    hlen hlen' (by simp) (by simp) (by omega)
  have hcap : ¬ nodeLength (w.disk s) > bnodeCapacity := Nat.not_lt.mpr hlen'
  have hne : ¬ nodeLength (w.disk s) = 0 := by omega
  simp only [Nat.pow_zero, Nat.mul_one] at hloop
  simpa only [bnodeBinFindGte, EStateM.run_bind_match, run_bnodeLength hlen', run_bugOn, if_neg hcap,
    EStateM.run_ite, if_neg hne, EStateM.run_get, bnodeGetEntry] using hloop

/-- A node without entries yields the null pointer. -/
theorem run_bnodeBinFindGte_empty (s needle : ℕ) {w : World}
    (hlen : nodeLength (w.disk s) = 0) : (bnodeBinFindGte s needle).run w = .ok none w := by
  have hle : nodeLength (w.disk s) ≤ 100 := by omega
  rw [bnodeBinFindGte, EStateM.run_bind_of_ok (run_bnodeLength hle), hlen]
  rfl

/-- A node with more entries than it has room for is a bug. -/
theorem run_bnodeBinFindGte_over (s needle : ℕ) {w : World}
    (hlen : 100 < nodeLength (w.disk s)) : (bnodeBinFindGte s needle).run w = .error .bug w := by
  simp only [bnodeBinFindGte, EStateM.run_bind_match, run_bnodeLength_over hlen]

/-! ## What the search is for -/

/-- The search returns the entry with the least id that is not below the needle, with
its index, or the null pointer when all ids are below. -/
inductive FindsGte (b : Block) (needle : ℕ) : Option ℕ → Prop where
  | some {i : ℕ} : i < nodeLength b → needle ≤ idAt b (bnodeGetEntry i) →
      (∀ k < nodeLength b, needle ≤ idAt b (bnodeGetEntry k) →
        idAt b (bnodeGetEntry i) ≤ idAt b (bnodeGetEntry k)) →
      bnodeIndexOf (bnodeGetEntry i) = i → FindsGte b needle (some (bnodeGetEntry i))
  | none : (∀ i < nodeLength b, idAt b (bnodeGetEntry i) < needle) → FindsGte b needle none

/-- The first entry a search looks at already lies behind the table. -/
theorem probe_ne_bnodeGetEntry {n i j : ℕ} (h : i < n) : probe n j ≠ bnodeGetEntry i := by
  have hpow : 0 < 8 ^ j := Nat.pow_pos (by omega)
  have hmul : n ≤ n * 8 ^ j := Nat.le_mul_of_pos_right n hpow
  simp only [probe, bnodeGetEntry, sizeofBentry, Nat.pow_succ, ← Nat.mul_assoc]
  omega

/-- No search of a node with entries finds the entry it is to find. -/
theorem bnodeBinFindGte_not_findsGte (s needle : ℕ) {w : World}
    (hlen : 1 ≤ nodeLength (w.disk s)) (hlen' : nodeLength (w.disk s) ≤ 100) :
    ¬ ∃ result w', (bnodeBinFindGte s needle).run w = .ok result w' ∧
      FindsGte (w.disk s) needle result := by
  rintro ⟨result, w', hrun, hfinds⟩
  rcases run_bnodeBinFindGte s needle hlen hlen' with ⟨j, -, hfind⟩ | ⟨-, hfind⟩
  · rw [hfind] at hrun
    cases hrun
    generalize haddr : probe (nodeLength (w.disk s)) j = addr at hfinds
    cases hfinds with
    | some hi => exact probe_ne_bnodeGetEntry hi haddr
  · rw [hfind] at hrun
    cases hrun

/-- A device with a node in block 7: one entry with id 5, and two leaf children. -/
def oneEntryWorld : World := freshWorld.setBlock 7 (nodeBlock [(5, 8)] [0, 0])

theorem bnodeBinFindGte_not_findsGte_oneEntry :
    ¬ ∃ result w', (bnodeBinFindGte 7 5).run oneEntryWorld = .ok result w' ∧
      FindsGte (oneEntryWorld.disk 7) 5 result :=
  bnodeBinFindGte_not_findsGte 7 5 (by decide) (by decide)

/-- The search for the only entry of a node reads outside of the block. -/
theorem bnodeBinFindGte_oneEntry :
    nodeLength (oneEntryWorld.disk 7) = 1 ∧ idAt (oneEntryWorld.disk 7) (bnodeGetEntry 0) = 5 ∧
      FindsGte (oneEntryWorld.disk 7) 5 (some (bnodeGetEntry 0)) ∧
      (bnodeBinFindGte 7 5).run oneEntryWorld = .error .oob oneEntryWorld ∧
      ¬ ∃ result w', (bnodeBinFindGte 7 5).run oneEntryWorld = .ok result w' ∧
        FindsGte (oneEntryWorld.disk 7) 5 result := by
  have hlen : nodeLength (oneEntryWorld.disk 7) = 1 := by decide
  have hid : idAt (oneEntryWorld.disk 7) (bnodeGetEntry 0) = 5 := by decide
  have hrun : (bnodeBinFindGte 7 5).run oneEntryWorld = .error .oob oneEntryWorld := by
    rcases run_bnodeBinFindGte 7 5 (w := oneEntryWorld) (by decide) (by decide) with
      ⟨j, hhit, -⟩ | ⟨-, hrun⟩
    · exact absurd hhit (not_hitAt_of_lt (by decide) j)
    · exact hrun
  refine ⟨hlen, hid, .some (by decide) hid.ge (fun k hk _ => ?_) (by decide), hrun, ?_⟩
  · rw [hlen, Nat.lt_one_iff] at hk
    rw [hk]
  · rintro ⟨result, w', hok, -⟩
    rw [hrun] at hok
    cases hok

end Spfs
