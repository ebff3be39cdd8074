-- SUMMARY: Which free lists are loaded, with what in them, and which requests they meet.
import Spfs.FreeList.Format
import Spfs.FreeList.Safety

/-!
# Loading and supply

`spfs_free_init` loads the chains all of whose blocks are good, and loads them
completely. `spfs_free_alloc` compares a request with the 32-bit total before it
searches the nodes, and the comparison is strict: a request for all that is left is
refused, and so is one that is not below a total that has wrapped.
-/

namespace Spfs

/-! ## Loading -/

/-- The sectors of the chain that starts at a sector and ends. -/
inductive FreeChain (disk : ℕ → Block) : ℕ → List ℕ → Prop where
  | nil : FreeChain disk 0 []
  | cons {s : ℕ} {l : List ℕ} : s ≠ 0 → FreeChain disk (headerAt (disk s) 0).next l →
      FreeChain disk s (s :: l)

/-- The block has the magic number, and its table lies in it. -/
def FreeBlockOk (bSize : ℕ) (b : Block) : Prop :=
  (headerAt b 0).magic = spookyFsFlMagic ∧ 12 + 8 * (headerAt b 0).entries ≤ bSize

instance (bSize : ℕ) (b : Block) : Decidable (FreeBlockOk bSize b) :=
  inferInstanceAs (Decidable (_ ∧ _))

/-- The table of a block. -/
def freeEntries (b : Block) : List FreeNode := entriesAt b 12 (headerAt b 0).entries

/-- The device that the blocks are cut from. -/
def World.device (w : World) : Block := Block.joined w.bSize w.disk 0

theorem World.shows_device (w : World) : w.Shows w.device := by
  intro s i hi
  rw [World.device, Block.joined_mul_add w.disk 0 s hi, Nat.zero_add]

section Chain

variable {env : Env} {w : World} {s : ℕ} {l : List ℕ}

theorem good_iff : (kernelView w.bSize w.device).Good s ↔ FreeBlockOk w.bSize (w.disk s) := by
  unfold FreeListView.Good FreeBlockOk
  rw [w.shows_device.headerAt]
  have hlimit (n : ℕ) : s * w.bSize + 12 + 8 * n ≤ s * w.bSize + w.bSize ↔ 12 + 8 * n ≤ w.bSize := by
    omega
  exact and_congr_right fun _ => hlimit _

theorem table_of_ok (h : FreeBlockOk w.bSize (w.disk s)) :
    (kernelView w.bSize w.device).table s = freeEntries (w.disk s) := by
  unfold freeEntries
  rw [w.shows_device.entriesAt s _ 12 h.2, w.shows_device.headerAt]
  rfl

theorem next_eq : ((kernelView w.bSize w.device).header s).next = (headerAt (w.disk s) 0).next := by
  rw [w.shows_device.headerAt]

/-- A reader is through with a chain after as many blocks as it has. -/
theorem FreeChain.endsWithin (h : FreeChain w.disk s l) (hs : s ≠ 0) :
    (kernelView w.bSize w.device).EndsWithin l.length s := by
  induction h with
  | nil => exact absurd rfl hs
  | @cons s l hne hrest ih =>
    by_cases hgood : (kernelView w.bSize w.device).Good s
    · by_cases hnext : (headerAt (w.disk s) 0).next = 0
      · exact .last hgood (next_eq.trans hnext)
      · refine .next hgood ?_ ?_
        · rw [next_eq]
          exact hnext
        · rw [next_eq]
          exact ih hnext
    · exact .bad hgood

/-- A chain of good blocks is well formed, and lists their tables. -/
theorem FreeChain.wellFormed (h : FreeChain w.disk s l) (hs : s ≠ 0)
    (hok : ∀ t ∈ l, FreeBlockOk w.bSize (w.disk t)) :
    (kernelView w.bSize w.device).WellFormed s (l.flatMap fun t => freeEntries (w.disk t)) := by
  induction h with
  | nil => exact absurd rfl hs
  | @cons s l hne hrest ih =>
    have hs_ok : FreeBlockOk w.bSize (w.disk s) := hok s List.mem_cons_self
    have hgood := good_iff.mpr hs_ok
    rw [List.flatMap_cons, ← table_of_ok hs_ok]
    by_cases hnext : (headerAt (w.disk s) 0).next = 0
    · rw [hnext] at hrest
      cases hrest with
      | nil =>
        rw [List.flatMap_nil, List.append_nil]
        exact .last hgood (next_eq.trans hnext)
      | cons hne _ => exact absurd rfl hne
    · refine .next hgood ?_ ?_
      · rw [next_eq]
        exact hnext
      · rw [next_eq]
        exact ih hnext fun t ht => hok t (List.mem_cons_of_mem _ ht)

/-- A chain with a bad block is broken. -/
theorem FreeChain.broken (h : FreeChain w.disk s l)
    (hbad : ∃ t ∈ l, ¬ FreeBlockOk w.bSize (w.disk t)) :
    (kernelView w.bSize w.device).Broken s := by
  induction h with
  | nil => simp at hbad
  | @cons s l hne hrest ih =>
    by_cases hs_ok : FreeBlockOk w.bSize (w.disk s)
    · obtain ⟨t, ht, hbad⟩ := hbad
      have ht' : t ∈ l := by
        rcases List.mem_cons.mp ht with rfl | ht'
        · exact absurd hs_ok hbad
        · exact ht'
      refine .next (good_iff.mpr hs_ok) ?_ ?_
      · intro hnext
        rw [← next_eq, hnext] at hrest
        cases hrest with
        | nil => cases ht'
        | cons hne _ => exact hne rfl
      · rw [next_eq]
        exact ih ⟨t, ht', hbad⟩
    · exact .bad fun hgood => hs_ok (good_iff.mp hgood)

theorem totalBlocks_reverse (l : List FreeNode) : totalBlocks l.reverse = totalBlocks l := by
  simp [totalBlocks]

/-- The loader accepts a chain exactly when all of its blocks are good, and then the
list has the entries of all of them, the last one first. -/
theorem spfsFreeInit_exact (henv : env.Grants) (hchain : FreeChain w.disk s l)
    (hfuel : l.length ≤ env.fuel) :
    ∃ res w', (spfsFreeInit env s).run w = .ok res w' ∧
      (res = 0 ↔ ∀ t ∈ l, FreeBlockOk w.bSize (w.disk t)) ∧
      (res = 0 → let entries := l.flatMap fun t => freeEntries (w.disk t)
        w'.sbi.freeList.root = entries.reverse ∧
        w'.sbi.freeList.blocks = totalBlocks entries % 2 ^ 32) := by
  have hends : s = 0 ∨ s ≠ 0 ∧ (kernelView w.bSize w.device).EndsWithin env.fuel s := by
    by_cases hs : s = 0
    · exact .inl hs
    · exact .inr ⟨hs, (hchain.endsWithin hs).mono hfuel⟩
  obtain ⟨res, w', hrun⟩ := spfsFreeInit_returns henv rfl w.shows_device hends
  refine ⟨res, w', hrun, ?_⟩
  rcases spfsFreeInit_loads henv w.shows_device hrun with
    ⟨rfl, es, hes, hfl⟩ | ⟨hres, hs, hbroken⟩
  · -- the chain that the loader went through has no bad block, and it is this one
    have hok : ∀ t ∈ l, FreeBlockOk w.bSize (w.disk t) := by
      by_contra hbad
      push Not at hbad
      have hbroken := hchain.broken hbad
      rcases hes with ⟨rfl, -⟩ | ⟨-, hwell⟩
      · cases hchain with
        | nil => simp at hbad
        | cons hne _ => exact hne rfl
      · exact hwell.not_broken hbroken
    have hes' : es = l.flatMap fun t => freeEntries (w.disk t) := by
      rcases hes with ⟨rfl, rfl⟩ | ⟨hs, hwell⟩
      · cases hchain with
        | nil => rfl
        | cons hne _ => exact absurd rfl hne
      · exact hwell.unique (hchain.wellFormed hs hok)
    have hroot : w'.sbi.freeList.root = es.reverse := by
      rw [hfl, root_foldl_push, List.append_nil]
    refine ⟨⟨fun _ => hok, fun _ => rfl⟩, fun _ => ⟨hes' ▸ hroot, ?_⟩⟩
    have hcounter : w'.sbi.freeList.blocks = totalBlocks w'.sbi.freeList.root % 2 ^ 32 :=
      spfsFreeInit_counterOk hrun
    rw [hcounter, hroot, totalBlocks_reverse, hes']
  · refine ⟨⟨fun h => absurd h hres, fun hok => ?_⟩, fun h => absurd h hres⟩
    exact absurd hbroken (hchain.wellFormed hs hok).not_broken

end Chain

/-- The device with one block of the free list. -/
theorem spfsFreeInit_exact_small :
    ∃ res w', (spfsFreeInit (.calm 1) 1).run smallDevice = .ok res w' ∧
      (res = 0 ↔ ∀ t ∈ [1], FreeBlockOk smallDevice.bSize (smallDevice.disk t)) ∧
      (res = 0 → let entries := [1].flatMap fun t => freeEntries (smallDevice.disk t)
        w'.sbi.freeList.root = entries.reverse ∧
        w'.sbi.freeList.blocks = totalBlocks entries % 2 ^ 32) := by
  have hnext : (headerAt (smallDevice.disk 1) 0).next = 0 := by decide
  have hchain : FreeChain smallDevice.disk 1 [1] := .cons (Nat.succ_ne_zero 0) (hnext ▸ .nil)
  exact spfsFreeInit_exact (Env.calm_grants 1) hchain le_rfl

/-! ## Supply -/

/-- What allocations need to know of a list. -/
structure FreeList.Stocked (fl : FreeList) : Prop where
  counter : fl.CounterOk
  start : ∀ node ∈ fl.root, 1 ≤ node.start

section Supply

variable {fl : FreeList}

/-- The search finds a node exactly when there is one. -/
theorem allocLit_isSome_iff (n : ℕ) (l : List FreeNode) :
    (allocLit n l).isSome ↔ ∃ node ∈ l, n ≤ node.blocks := by
  induction l with
  | nil => simp [allocLit]
  | cons node l ih =>
    unfold allocLit
    split
    · next hn => exact ⟨fun _ => ⟨node, List.mem_cons_self, hn⟩, fun _ => rfl⟩
    · next hn =>
      rw [Option.isSome_map, ih, List.exists_mem_cons_iff]
      exact ⟨.inr, fun h => h.resolve_left hn⟩

theorem FreeList.Stocked.alloc (h : fl.Stocked) (n : ℕ) : (spfsFreeAlloc fl n).2.Stocked := by
  rcases spfsFreeAlloc_search (Prod.mk.eta (p := spfsFreeAlloc fl n)).symm with
    ⟨-, hfl⟩ | ⟨hn, hsearch, hblocks⟩
  · rw [hfl]
    exact h
  · constructor
    · rw [CounterOk, hblocks]
      exact counterOk_sub h.counter hn (allocLit_total hsearch)
    · intro node hnode
      obtain ⟨node₀, hmem, hshrinks⟩ := exists_shrinks_of_mem (allocLit_shrinks hsearch) hnode
      rw [hshrinks.1]
      exact h.start node₀ hmem

theorem FreeList.Stocked.allocRun (h : fl.Stocked) (reqs : List ℕ) : (allocRun fl reqs).2.Stocked := by
  induction reqs using List.reverseRecOn with
  | nil => exact h
  | append_singleton reqs n ih =>
    rw [allocRun_concat]
    exact ih.alloc n

/-- A request is met when it is below the total and a node has the blocks. -/
theorem FreeList.Stocked.alloc_ne_zero_iff (h : fl.Stocked) (n : ℕ) :
    (spfsFreeAlloc fl n).1 ≠ 0 ↔ n < fl.blocks ∧ ∃ node ∈ fl.root, n ≤ node.blocks := by
  rw [← allocLit_isSome_iff]
  unfold spfsFreeAlloc
  split
  · next hn =>
    cases hsearch : allocLit n fl.root with
    | none => simp
    | some r =>
      have hpos : 1 ≤ r.1 := allocLit_pos hsearch h.start
      exact ⟨fun _ => ⟨hn, rfl⟩, fun _ => Nat.one_le_iff_ne_zero.mp hpos⟩
  · next hn => exact ⟨fun h => absurd rfl h, fun h => absurd h.1 hn⟩

end Supply

/-- In any sequence of requests on a loaded list, a request is met exactly when a node
has the blocks, if and only if no node has them or the request is below the total of
the nodes, taken modulo 2 ^ 32. -/
theorem spfsFreeAlloc_meets_iff {env : Env} {head : ℕ} {w w' : World}
    (hload : (spfsFreeInit env head).run w = .ok 0 w')
    (hstart : ∀ node ∈ w'.sbi.freeList.root, 1 ≤ node.start) (reqs : List ℕ) (n : ℕ) :
    let fl := (allocRun w'.sbi.freeList reqs).2
    ((spfsFreeAlloc fl n).1 ≠ 0 ↔ ∃ node ∈ fl.root, n ≤ node.blocks) ↔
      ((∃ node ∈ fl.root, n ≤ node.blocks) → n < totalBlocks fl.root % 2 ^ 32) := by
  intro fl
  have hstocked : fl.Stocked := .allocRun ⟨spfsFreeInit_counterOk hload, hstart⟩ reqs
  have hcounter : fl.blocks = totalBlocks fl.root % 2 ^ 32 := hstocked.counter
  rw [hstocked.alloc_ne_zero_iff, hcounter]
  constructor
  · intro hiff hnode
    exact (hiff.mpr hnode).1
  · intro hbelow
    exact ⟨And.right, fun hnode => ⟨hbelow hnode, hnode⟩⟩

theorem spfsFreeAlloc_meets_iff_small :
    ∃ w', (spfsFreeInit (.calm 1) 1).run smallDevice = .ok 0 w' ∧
      ∀ n, let fl := (allocRun w'.sbi.freeList [4, 200, 3]).2
        ((spfsFreeAlloc fl n).1 ≠ 0 ↔ ∃ node ∈ fl.root, n ≤ node.blocks) ↔
          ((∃ node ∈ fl.root, n ≤ node.blocks) → n < totalBlocks fl.root % 2 ^ 32) := by
  obtain ⟨w', hload, hfl⟩ := smallDevice_loads
  refine ⟨w', hload, spfsFreeAlloc_meets_iff hload ?_ [4, 200, 3]⟩
  simp [hfl]

/-- The last block of the device is never handed out. -/
theorem smallDevice_keeps_last :
    ∃ w', (spfsFreeInit (.calm 1) 1).run smallDevice = .ok 0 w' ∧
      (∃ node ∈ (allocRun w'.sbi.freeList [99]).2.root, 1 ≤ node.blocks) ∧
      (spfsFreeAlloc (allocRun w'.sbi.freeList [99]).2 1).1 = 0 := by
  obtain ⟨w', hload, hfl⟩ := smallDevice_loads
  refine ⟨w', hload, ?_⟩
  rw [hfl]
  decide

end Spfs
