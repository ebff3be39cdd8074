-- SUMMARY: No block is handed out twice: every run of allocations on a loaded free list is a run of grants from its region.
import Mathlib.Data.List.Forall2
import Mathlib.Order.Interval.Set.Disjoint
import Spfs.FreeList
import Spfs.Lib.Region

/-!
# Safety of the allocator

The blocks a free list describes form a region, and `spfs_free_alloc` is one
grant from it (`allocLit_spec`): a node only ever shrinks to a smaller range with
the same start, and what it loses is what the call returns. `AllocInv` carries
this over runs.
-/

namespace Spfs

/-- The blocks a node describes. -/
def FreeNode.range (node : FreeNode) : Set ℕ := Set.Ico node.start (node.start + node.blocks)

/-- The blocks a list of nodes describes. -/
def region (l : List FreeNode) : Set ℕ := {s | ∃ node ∈ l, s ∈ node.range}

/-- The number of blocks in a list of nodes. -/
def totalBlocks (l : List FreeNode) : ℕ := (l.map FreeNode.blocks).sum

/-- The blocks handed out by a call that returned `grant.1` for `grant.2` blocks. -/
def grantRange (grant : ℕ × ℕ) : Set ℕ := Set.Ico grant.1 (grant.1 + grant.2)

/-- `node'` is what is left of `node` after allocations from its end. -/
def FreeNode.Shrinks (node node' : FreeNode) : Prop :=
  node'.start = node.start ∧ node'.blocks ≤ node.blocks

@[simp] theorem totalBlocks_nil : totalBlocks [] = 0 := rfl
@[simp] theorem totalBlocks_cons (node : FreeNode) (l : List FreeNode) :
    totalBlocks (node :: l) = node.blocks + totalBlocks l := rfl

@[simp] theorem region_nil : region [] = ∅ := by simp [region]

theorem region_cons (node : FreeNode) (l : List FreeNode) :
    region (node :: l) = node.range ∪ region l := by
  ext s
  simp [region]

theorem FreeNode.Shrinks.refl (node : FreeNode) : node.Shrinks node := ⟨rfl, le_rfl⟩

theorem FreeNode.Shrinks.trans {a b c : FreeNode} (h : a.Shrinks b) (h' : b.Shrinks c) :
    a.Shrinks c := ⟨h'.1.trans h.1, h'.2.trans h.2⟩

theorem FreeNode.Shrinks.range_subset {node node' : FreeNode} (h : node.Shrinks node') :
    node'.range ⊆ node.range := by
  intro s hs
  simp only [range, Set.mem_Ico] at hs ⊢
  have := h.1
  have := h.2
  omega

/-- Nodes with pairwise disjoint ranges. -/
def DisjointNodes (l : List FreeNode) : Prop :=
  l.Pairwise fun a b => Disjoint a.range b.range

theorem DisjointNodes.disjoint_region {node : FreeNode} {l : List FreeNode}
    (h : DisjointNodes (node :: l)) : Disjoint node.range (region l) := by
  rw [Set.disjoint_left]
  rintro s hs ⟨node', hmem, hs'⟩
  exact Set.disjoint_left.mp (List.rel_of_pairwise_cons h hmem) hs hs'

/-! ## One allocation -/

/-- What one successful search does to the nodes. -/
structure Carved (l l' : List FreeNode) (n r : ℕ) : Prop where
  shrinks : List.Forall₂ FreeNode.Shrinks l l'
  inside : ∃ node ∈ l, grantRange (r, n) ⊆ node.range
  region_eq : region l' = region l \ grantRange (r, n)
  total : totalBlocks l' + n = totalBlocks l
  pos : (∀ node ∈ l, 1 ≤ node.start) → 1 ≤ r

/-- An induction over a successful search. -/
theorem allocLit_induction {n r : ℕ} {l l' : List FreeNode}
    {motive : List FreeNode → List FreeNode → Prop}
    (h : allocLit n l = some (r, l'))
    (here : ∀ node l, n ≤ node.blocks → r = node.start + (node.blocks - n) →
      motive (node :: l) ({ node with blocks := node.blocks - n } :: l))
    (later : ∀ node l l', allocLit n l = some (r, l') → motive l l' →
      motive (node :: l) (node :: l')) : motive l l' := by
  induction l generalizing l' with
  | nil => cases h
  | cons node l ih =>
    rw [allocLit] at h
    split at h
    · cases h
      exact here node l ‹_› rfl
    · obtain ⟨⟨r', l''⟩, hrec, heq⟩ := Option.map_eq_some_iff.mp h
      cases heq
      exact later node l l'' hrec (ih hrec)

theorem allocLit_shrinks {n r : ℕ} {l l' : List FreeNode} (h : allocLit n l = some (r, l')) :
    List.Forall₂ FreeNode.Shrinks l l' := by
  apply allocLit_induction h
  · intro node l hn hr
    exact .cons ⟨rfl, Nat.sub_le _ _⟩ (List.forall₂_same.mpr fun _ _ => .refl _)
  · intro node l l' _ ih
    exact .cons (.refl _) ih

theorem allocLit_total {n r : ℕ} {l l' : List FreeNode} (h : allocLit n l = some (r, l')) :
    totalBlocks l' + n = totalBlocks l := by
  apply allocLit_induction h (motive := fun l l' => totalBlocks l' + n = totalBlocks l)
  · intro node l hn hr
    simp only [totalBlocks_cons]
    omega
  · intro node l l' _ ih
    simp only [totalBlocks_cons]
    omega

theorem allocLit_pos {n r : ℕ} {l l' : List FreeNode} (h : allocLit n l = some (r, l'))
    (hstart : ∀ node ∈ l, 1 ≤ node.start) : 1 ≤ r := by
  revert hstart
  apply allocLit_induction h (motive := fun l _ => (∀ node ∈ l, 1 ≤ node.start) → 1 ≤ r)
  · intro node l hn hr hstart
    have := hstart node List.mem_cons_self
    omega
  · intro node l l' _ ih hstart
    exact ih fun m hm => hstart m (List.mem_cons_of_mem _ hm)

/-- The grant is what the region of disjoint nodes loses. -/
theorem allocLit_region {n r : ℕ} {l l' : List FreeNode} (h : allocLit n l = some (r, l'))
    (hd : DisjointNodes l) :
    (∃ node ∈ l, grantRange (r, n) ⊆ node.range) ∧ region l' = region l \ grantRange (r, n) := by
  revert hd
  apply allocLit_induction h (motive := fun l l' => DisjointNodes l →
    (∃ node ∈ l, grantRange (r, n) ⊆ node.range) ∧ region l' = region l \ grantRange (r, n))
  · intro node l hn hr hd
    constructor
    · refine ⟨node, List.mem_cons_self, fun s hs => ?_⟩
      simp only [grantRange, FreeNode.range, Set.mem_Ico] at hs ⊢
      omega
    · have hrest := Set.disjoint_right.mp hd.disjoint_region
      ext s
      simp only [region_cons, Set.mem_union, Set.mem_sdiff, FreeNode.range, grantRange, Set.mem_Ico]
      constructor
      · rintro (h | h)
        · omega
        · have := hrest h
          simp only [FreeNode.range, Set.mem_Ico] at this
          exact ⟨.inr h, by omega⟩
      · rintro ⟨h | h, hng⟩
        · exact .inl (by omega)
        · exact .inr h
  · intro node l l' _ ih hd
    obtain ⟨⟨m, hm, hsub⟩, hregion⟩ := ih hd.of_cons
    have hnode : Disjoint node.range (grantRange (r, n)) :=
      (List.rel_of_pairwise_cons hd hm).mono_right hsub
    refine ⟨⟨m, List.mem_cons_of_mem _ hm, hsub⟩, ?_⟩
    rw [region_cons, region_cons, hregion, Set.union_sdiff_distrib, hnode.sdiff_eq_left]

theorem allocLit_spec {l l' : List FreeNode} {n r : ℕ} (hd : DisjointNodes l)
    (h : allocLit n l = some (r, l')) : Carved l l' n r where
  shrinks := allocLit_shrinks h
  inside := (allocLit_region h hd).1
  region_eq := (allocLit_region h hd).2
  total := allocLit_total h
  pos := allocLit_pos h

theorem exists_shrinks_of_mem {l l' : List FreeNode} {node' : FreeNode}
    (h : List.Forall₂ FreeNode.Shrinks l l') (hmem : node' ∈ l') :
    ∃ node ∈ l, node.Shrinks node' := by
  induction h with
  | nil => cases hmem
  | @cons a b l l' hab _ ih =>
    cases hmem with
    | head => exact ⟨a, List.mem_cons_self, hab⟩
    | tail _ hmem =>
      obtain ⟨node, hnode, hs⟩ := ih hmem
      exact ⟨node, List.mem_cons_of_mem _ hnode, hs⟩

theorem shrinks_trans {l₁ l₂ l₃ : List FreeNode} (h : List.Forall₂ FreeNode.Shrinks l₁ l₂)
    (h' : List.Forall₂ FreeNode.Shrinks l₂ l₃) : List.Forall₂ FreeNode.Shrinks l₁ l₃ := by
  induction h generalizing l₃ with
  | nil => exact h'
  | cons hab _ ih =>
    cases h' with
    | cons hbc hrest => exact .cons (hab.trans hbc) (ih hrest)

/-- Shrinking nodes keeps their ranges disjoint. -/
theorem DisjointNodes.shrinks {l l' : List FreeNode} (hd : DisjointNodes l)
    (h : List.Forall₂ FreeNode.Shrinks l l') : DisjointNodes l' := by
  induction h with
  | nil => exact .nil
  | cons hab hl ih =>
    refine List.Pairwise.cons (fun b' hb' => ?_) (ih hd.of_cons)
    obtain ⟨a', ha', hab'⟩ := exists_shrinks_of_mem hl hb'
    exact (List.rel_of_pairwise_cons hd ha').mono hab.range_subset hab'.range_subset

/-- What one call of `spfs_free_alloc` does: it refuses and changes nothing, or its
search succeeds and the total is lowered. -/
theorem spfsFreeAlloc_search {fl fl' : FreeList} {n r : ℕ} (h : spfsFreeAlloc fl n = (r, fl')) :
    (r = 0 ∧ fl' = fl) ∨
      (n < fl.blocks ∧ allocLit n fl.root = some (r, fl'.root) ∧ fl'.blocks = fl.blocks - n) := by
  unfold spfsFreeAlloc at h
  split at h
  · split at h
    · cases h
      exact .inr ⟨‹_›, ‹_›, rfl⟩
    · cases h
      exact .inl ⟨rfl, rfl⟩
  · cases h
    exact .inl ⟨rfl, rfl⟩

/-- On disjoint nodes a search that succeeds carves the blocks out of them. -/
theorem spfsFreeAlloc_cases {fl fl' : FreeList} {n r : ℕ} (hd : DisjointNodes fl.root)
    (h : spfsFreeAlloc fl n = (r, fl')) :
    (r = 0 ∧ fl' = fl) ∨
      (n < fl.blocks ∧ Carved fl.root fl'.root n r ∧ fl'.blocks = fl.blocks - n) := by
  rcases spfsFreeAlloc_search h with hrefused | ⟨hn, hsearch, hblocks⟩
  · exact .inl hrefused
  · exact .inr ⟨hn, allocLit_spec hd hsearch, hblocks⟩

/-! ## Runs of allocations -/

/-- One request of a run: what was granted so far, newest first, and the list. -/
def allocStep (acc : List (ℕ × ℕ) × FreeList) (n : ℕ) : List (ℕ × ℕ) × FreeList :=
  (((spfsFreeAlloc acc.2 n).1, n) :: acc.1, (spfsFreeAlloc acc.2 n).2)

/-- A sequence of requests, each on the list that the one before it left. -/
def allocRun (fl : FreeList) (reqs : List ℕ) : List (ℕ × ℕ) × FreeList :=
  reqs.foldl allocStep ([], fl)

@[simp] theorem allocRun_nil (fl : FreeList) : allocRun fl [] = ([], fl) := rfl

@[simp] theorem allocRun_concat (fl : FreeList) (reqs : List ℕ) (n : ℕ) :
    allocRun fl (reqs ++ [n]) = allocStep (allocRun fl reqs) n := by
  simp [allocRun]

/-- The calls that returned blocks. -/
def successful (granted : List (ℕ × ℕ)) : List (ℕ × ℕ) := granted.filter fun g => g.1 ≠ 0

/-- The running total agrees with the nodes, up to the width of the counter. -/
def FreeList.CounterOk (fl : FreeList) : Prop := fl.blocks = totalBlocks fl.root % 2 ^ 32

/-- What holds after any run from `fl₀`. -/
structure AllocInv (fl₀ : FreeList) (granted : List (ℕ × ℕ)) (fl : FreeList) : Prop where
  shrinks : List.Forall₂ FreeNode.Shrinks fl₀.root fl.root
  run : Region.Run (region fl₀.root) ((successful granted).map grantRange) (region fl.root)
  conserved : totalBlocks fl.root + ((successful granted).map Prod.snd).sum = totalBlocks fl₀.root
  counter : fl.CounterOk

/-- The promises of one call after a run. -/
structure AllocSafe (fl₀ : FreeList) (granted : List (ℕ × ℕ)) (n r : ℕ)
    (fl fl' : FreeList) : Prop where
  inside : r ≠ 0 → ∃ node ∈ fl₀.root, grantRange (r, n) ⊆ node.range
  fresh : r ≠ 0 → ∀ g ∈ granted, g.1 ≠ 0 → Disjoint (grantRange (r, n)) (grantRange g)
  gone : r ≠ 0 → ∀ node ∈ fl'.root, Disjoint (grantRange (r, n)) node.range
  refused : r = 0 → fl' = fl

theorem AllocInv.init {fl₀ : FreeList} (hc : fl₀.CounterOk) : AllocInv fl₀ [] fl₀ where
  shrinks := List.forall₂_same.mpr fun _ _ => .refl _
  run := .nil
  conserved := by simp [successful]
  counter := hc

section Step

variable {fl₀ fl fl' : FreeList} {granted : List (ℕ × ℕ)} {n r : ℕ}

theorem AllocInv.disjoint (h : AllocInv fl₀ granted fl) (hd : DisjointNodes fl₀.root) :
    DisjointNodes fl.root :=
  hd.shrinks h.shrinks

theorem AllocInv.one_le_start (h : AllocInv fl₀ granted fl)
    (hstart : ∀ node ∈ fl₀.root, 1 ≤ node.start) : ∀ node ∈ fl.root, 1 ≤ node.start := by
  intro node hnode
  obtain ⟨node₀, hmem, hs⟩ := exists_shrinks_of_mem h.shrinks hnode
  rw [hs.1]
  exact hstart node₀ hmem

/-- Taking `n` below the counter off both sides keeps counter and nodes in step. -/
theorem counterOk_sub {c t t' n : ℕ} (hc : c = t % 2 ^ 32) (hn : n < c) (ht : t' + n = t) :
    c - n = t' % 2 ^ 32 := by
  omega

/-- The step lemma: a call keeps the invariant. -/
theorem AllocInv.step (h : AllocInv fl₀ granted fl) (hd : DisjointNodes fl₀.root)
    (hstart : ∀ node ∈ fl₀.root, 1 ≤ node.start) (hcall : spfsFreeAlloc fl n = (r, fl')) :
    AllocInv fl₀ ((r, n) :: granted) fl' := by
  rcases spfsFreeAlloc_cases (h.disjoint hd) hcall with ⟨rfl, rfl⟩ | ⟨hn, hcarved, hblocks⟩
  · exact ⟨h.shrinks, by simpa [successful] using h.run, by simpa [successful] using h.conserved,
      h.counter⟩
  · have hr : r ≠ 0 := Nat.one_le_iff_ne_zero.mp (hcarved.pos (h.one_le_start hstart))
    have hsucc : successful ((r, n) :: granted) = (r, n) :: successful granted := by
      simp [successful, hr]
    refine ⟨?_, ?_, ?_, ?_⟩
    · exact shrinks_trans h.shrinks hcarved.shrinks
    · rw [hsucc, hcarved.region_eq]
      refine .grant h.run ?_
      obtain ⟨node, hmem, hsub⟩ := hcarved.inside
      exact fun s hs => ⟨node, hmem, hsub hs⟩
    · have := h.conserved
      have := hcarved.total
      simp only [hsucc, List.map_cons, List.sum_cons]
      omega
    · rw [FreeList.CounterOk, hblocks]
      exact counterOk_sub h.counter hn hcarved.total

/-- A call after a run keeps its promises. -/
theorem AllocInv.safe (h : AllocInv fl₀ granted fl) (hd : DisjointNodes fl₀.root)
    (hstart : ∀ node ∈ fl₀.root, 1 ≤ node.start) (hcall : spfsFreeAlloc fl n = (r, fl')) :
    AllocSafe fl₀ granted n r fl fl' := by
  rcases spfsFreeAlloc_cases (h.disjoint hd) hcall with ⟨rfl, rfl⟩ | ⟨-, hcarved, -⟩
  · exact ⟨by simp, by simp, by simp, fun _ => rfl⟩
  obtain ⟨node, hmem, hsub⟩ := hcarved.inside
  have hr : 1 ≤ r := hcarved.pos (h.one_le_start hstart)
  refine ⟨fun _ => ?_, fun _ g hg hg0 => ?_, fun _ node' hnode' => ?_, fun hr0 => ?_⟩
  · obtain ⟨node₀, hmem₀, hs⟩ := exists_shrinks_of_mem h.shrinks hmem
    exact ⟨node₀, hmem₀, hsub.trans hs.range_subset⟩
  · have hgone : Disjoint (grantRange g) (region fl.root) :=
      h.run.disjoint_free (List.mem_map_of_mem (by simp [successful, hg, hg0]))
    have hgrant : grantRange (r, n) ⊆ region fl.root := fun s hs => ⟨node, hmem, hsub hs⟩
    exact (hgone.mono_right hgrant).symm
  · have hregion : Disjoint (grantRange (r, n)) (region fl'.root) := by
      rw [hcarved.region_eq]
      exact Set.disjoint_sdiff_right
    have hnode : node'.range ⊆ region fl'.root := fun s hs => ⟨node', hnode', hs⟩
    exact hregion.mono_right hnode
  · omega

end Step

/-- The run lemma: the invariant holds after any sequence of requests. -/
theorem AllocInv.run_requests {fl₀ : FreeList} (hd : DisjointNodes fl₀.root)
    (hstart : ∀ node ∈ fl₀.root, 1 ≤ node.start) (hc : fl₀.CounterOk) (reqs : List ℕ) :
    AllocInv fl₀ (allocRun fl₀ reqs).1 (allocRun fl₀ reqs).2 := by
  induction reqs using List.reverseRecOn with
  | nil => exact .init hc
  | append_singleton reqs n ih =>
    rw [allocRun_concat]
    exact ih.step hd hstart rfl

/-- No two requests of a run get a common block, and none gets one that was not on the list. -/
theorem allocRun_disjoint {fl₀ : FreeList} (hd : DisjointNodes fl₀.root)
    (hstart : ∀ node ∈ fl₀.root, 1 ≤ node.start) (hc : fl₀.CounterOk) (reqs : List ℕ) :
    let blocks := (successful (allocRun fl₀ reqs).1).map grantRange
    blocks.Pairwise Disjoint ∧ ∀ g ∈ blocks, g ⊆ region fl₀.root := by
  have hrun := (AllocInv.run_requests hd hstart hc reqs).run
  exact ⟨hrun.pairwise_disjoint, fun _ hg => hrun.subset_of_mem hg⟩

/-! ## What the loader establishes -/

theorem FreeList.CounterOk.push {fl : FreeList} (h : fl.CounterOk) (node : FreeNode) :
    (fl.push node).CounterOk := by
  simp only [CounterOk, FreeList.push, totalBlocks_cons] at h ⊢
  omega

/-- The counter of the mounted list agrees with its nodes. -/
def CounterInv (w : World) : Prop := w.sbi.freeList.CounterOk

instance : IgnoresLog (EStateM.Keeps CounterInv) where
  addEvent _ _ h := h

open EStateM (Within Keeps)

theorem spfsInitFreeListEntry_keeps (env : Env) (s pos : ℕ) :
    Within (Keeps CounterInv) (spfsInitFreeListEntry env s pos) := by
  unfold spfsInitFreeListEntry
  refine Within.get.bind fun w => (within_emit _).bind fun _ => ?_
  exact Within.ite (fun _ => Within.pure _) fun _ => within_parseBuf _ _ _

theorem spfsFreeInitEntries_keeps (env : Env) (s length pos : ℕ) :
    Within (Keeps CounterInv) (spfsFreeInitEntries env s length pos) := by
  induction length generalizing pos with
  | zero => exact Within.pure _
  | succ length ih =>
    refine (spfsInitFreeListEntry_keeps env s pos).bind fun r => ?_
    rcases r with ⟨_ | node, pos'⟩
    · exact Within.pure _
    · intro w hw
      have hpush : CounterInv (w.setFreeList (w.sbi.freeList.push node)) := hw.push node
      simpa using ih pos' _ hpush

theorem spfsFreeInitLit_keeps (env : Env) (fuel head : ℕ) :
    Within (Keeps CounterInv) (spfsFreeInitLit env fuel head) := by
  induction fuel generalizing head with
  | zero =>
    cases head with
    | zero => exact Within.pure _
    | succ head => exact Within.throw _
  | succ fuel ih =>
    cases head with
    | zero => exact Within.pure _
    | succ head =>
      refine (within_sbBread env _).bind fun ok => Within.ite (fun _ => Within.pure _) fun _ => ?_
      refine (within_parseBuf _ _ _).bind fun r => ?_
      rcases r with ⟨_ | ⟨freeLength, freeNext⟩, pos⟩
      · exact Within.pure _
      · refine (spfsFreeInitEntries_keeps env _ _ _).bind fun ok => ?_
        refine Within.ite (fun _ => Within.pure _) fun _ => ?_
        exact (within_brelse _).bind fun _ => ih freeNext

/-- Whatever the chain of blocks looks like, a list that was loaded has its counter right. -/
theorem spfsFreeInit_counterOk {env : Env} {head : ℕ} {res : ℤ} {w w' : World}
    (h : (spfsFreeInit env head).run w = .ok res w') : w'.sbi.freeList.CounterOk := by
  rw [spfsFreeInit, EStateM.run_bind_match, run_setFreeList] at h
  exact (spfsFreeInitLit_keeps env env.fuel head).of_ok h rfl

/-! ## No block is handed out twice -/

/-- A loaded list of disjoint nodes hands out no block twice and loses none, in
any sequence of requests. -/
theorem spfsFreeAlloc_hands_out_once {env : Env} {head : ℕ} {w w' : World}
    (hload : (spfsFreeInit env head).run w = .ok 0 w')
    (hd : DisjointNodes w'.sbi.freeList.root)
    (hstart : ∀ node ∈ w'.sbi.freeList.root, 1 ≤ node.start) (reqs : List ℕ) :
    let fl₀ := w'.sbi.freeList
    let granted := (allocRun fl₀ reqs).1
    let fl := (allocRun fl₀ reqs).2
    totalBlocks fl.root + ((successful granted).map Prod.snd).sum = totalBlocks fl₀.root ∧
      fl.blocks = totalBlocks fl.root % 2 ^ 32 ∧
      ∀ n, AllocSafe fl₀ granted n (spfsFreeAlloc fl n).1 fl (spfsFreeAlloc fl n).2 := by
  have hinv : AllocInv w'.sbi.freeList (allocRun w'.sbi.freeList reqs).1
      (allocRun w'.sbi.freeList reqs).2 :=
    .run_requests hd hstart (spfsFreeInit_counterOk hload) reqs
  exact ⟨hinv.conserved, hinv.counter, fun n => hinv.safe hd hstart rfl⟩

/-- A device whose block 1 is a free list block with the single entry `[2, 102)`. -/
def smallDevice : World where
  bSize := 512
  bSize_bounds := World.bounds_512
  disk := fun s => if s = 1 then
    Block.write (fun _ => 0) 0 (beEncode 4 spookyFsFlMagic ++ beEncode 4 1 ++ beEncode 4 0 ++
      beEncode 4 2 ++ beEncode 4 100)
    else fun _ => 0
  log := []
  sbi := ⟨1, spookyFsSuperMagic, 512, 0, 1, 1, 1, ⟨512, 1, 0⟩, ⟨0, []⟩⟩
  inodes := fun _ => none
  slab := []

theorem smallDevice_loads :
    ∃ w', (spfsFreeInit (.calm 1) 1).run smallDevice = .ok 0 w' ∧
      w'.sbi.freeList = ⟨100, [⟨2, 100⟩]⟩ :=
  ⟨_, rfl, by decide⟩

theorem spfsFreeAlloc_hands_out_once_small :
    ∃ w', (spfsFreeInit (.calm 1) 1).run smallDevice = .ok 0 w' ∧
      ∀ n, AllocSafe w'.sbi.freeList (allocRun w'.sbi.freeList [4, 200, 3]).1 n
        (spfsFreeAlloc (allocRun w'.sbi.freeList [4, 200, 3]).2 n).1
        (allocRun w'.sbi.freeList [4, 200, 3]).2
        (spfsFreeAlloc (allocRun w'.sbi.freeList [4, 200, 3]).2 n).2 := by
  obtain ⟨w', hload, hfl⟩ := smallDevice_loads
  refine ⟨w', hload, (spfsFreeAlloc_hands_out_once hload ?_ ?_ [4, 200, 3]).2.2⟩
  · rw [hfl]
    exact List.pairwise_singleton _ _
  · simp [hfl]

end Spfs
