-- SUMMARY: When fsck and the kernel agree on a free list, for every image that both take for a file system.
import Spfs.Fsck.Fresh

/-!
# fsck against the loader

Both readers walk the chain of free list blocks, each in its own view. They differ
in four places: `fsck` reads a block even when the super block names none, it
multiplies in 32 bits, it reads a table up to the end of the file instead of the
end of the block, and neither of them notices a chain that runs in a circle.
-/

namespace Spfs

open FreeListView (WellFormed Broken EndsWithin)

/-- Both readers come to an end, return 0 in the same cases, and then have the same
entries. Both lists have the last entry first. -/
def FreeListsAgree (env : Env) (fd : OpenFile) (super : SuperBlockWire) (w : World) : Prop :=
  ∃ fuel res fd' res' w', (fsckFreeList fuel super).run fd = .ok res fd' ∧
    (spfsFreeInit { env with fuel := fuel } w.sbi.freeListOffset).run w = .ok res' w' ∧
    (res = 0 ↔ res' = 0) ∧ (res = 0 → fd'.printed = w'.sbi.freeList.root)

/-- The blocks that the chain from `s` on goes through. -/
inductive Referenced (v : FreeListView) (s : ℕ) : ℕ → Prop where
  | first : Referenced v s s
  | next {t : ℕ} : Referenced v s t → (v.header t).next ≠ 0 → Referenced v s (v.header t).next

/-- No block of the chain lies at or behind the first 2 ^ 32 bytes. -/
def NoWrap (bs : ℕ) (data : Block) (s : ℕ) : Prop :=
  ∀ t, Referenced (kernelView bs data) s t → t * bs < 2 ^ 32

/-- Every block of the chain lies inside the file. -/
def InDevice (bs size : ℕ) (data : Block) (s : ℕ) : Prop :=
  ∀ t, Referenced (kernelView bs data) s t → t * bs + bs ≤ size

/-- The chains on which the readers agree. As long as no product wraps: a chain that
ends in its own blocks, one that runs into a bad header or out of the file, or, when
the super block names no free list, a chain of empty tables from block 0 on. After a
product has wrapped the readers look at different bytes, and these have to tell the
same. -/
def AgreeableChain (bs size : ℕ) (data : Block) (s : ℕ) : Prop :=
  (NoWrap bs data s ∧
    (s ≠ 0 ∧ ((∃ es, (kernelView bs data).WellFormed s es) ∨ (fsckView bs size data).Broken s) ∨
      s = 0 ∧ (fsckView bs size data).WellFormed 0 [])) ∨
  (¬ NoWrap bs data s ∧
    ((s ≠ 0 ∧ (kernelView bs data).Broken s ∧ (fsckView bs size data).Broken s) ∨
      ∃ es, (fsckView bs size data).WellFormed s es ∧
        (s = 0 ∧ es = [] ∨ s ≠ 0 ∧ (kernelView bs data).WellFormed s es)))

section Views

variable {bs size s : ℕ} {data : Block}

theorem Referenced.of_next {v : FreeListView} {t : ℕ} (hs : (v.header s).next ≠ 0)
    (h : Referenced v (v.header s).next t) : Referenced v s t := by
  induction h with
  | first => exact .next .first hs
  | next _ hne ih => exact .next ih hne

/-- Where no product wraps, both readers look for a block at the same place. -/
theorem header_fsckView (h : s * bs < 2 ^ 32) :
    (fsckView bs size data).header s = (kernelView bs data).header s := by
  simp only [FreeListView.header, fsckView, kernelView, Nat.mod_eq_of_lt h]

theorem table_fsckView (h : s * bs < 2 ^ 32) :
    (fsckView bs size data).table s = (kernelView bs data).table s := by
  simp only [FreeListView.table, FreeListView.header, fsckView, kernelView, Nat.mod_eq_of_lt h]

theorem good_fsckView (h : s * bs < 2 ^ 32) (hin : s * bs + bs ≤ size)
    (hgood : (kernelView bs data).Good s) : (fsckView bs size data).Good s := by
  refine ⟨by rw [header_fsckView h]; exact hgood.1, ?_⟩
  rw [header_fsckView h]
  show s * bs % 2 ^ 32 + 12 + _ ≤ size
  have : s * bs + 12 + 8 * _ ≤ s * bs + bs := hgood.2
  rw [Nat.mod_eq_of_lt h]
  omega

/-- A chain that ends in its own blocks is read alike by both. -/
theorem wellFormed_fsckView {v : FreeListView} {es : List FreeNode} (h : v.WellFormed s es)
    (hv : v = kernelView bs data) (hwrap : NoWrap bs data s) (hin : InDevice bs size data s) :
    (fsckView bs size data).WellFormed s es := by
  induction h with
  | @last s hgood hnext =>
    subst hv
    have hlt := hwrap s .first
    rw [← table_fsckView hlt]
    exact .last (good_fsckView hlt (hin s .first) hgood) (by rw [header_fsckView hlt, hnext])
  | @next s es hgood hne _ ih =>
    subst hv
    have hlt := hwrap s .first
    rw [← table_fsckView hlt]
    refine .next (good_fsckView hlt (hin s .first) hgood) (by rw [header_fsckView hlt]; exact hne) ?_
    rw [header_fsckView hlt]
    exact ih (fun t ht => hwrap t (ht.of_next hne)) fun t ht => hin t (ht.of_next hne)

/-- What `fsck` rejects, the kernel rejects, perhaps earlier. -/
theorem broken_kernelView {v : FreeListView} (h : v.Broken s) (hv : v = fsckView bs size data)
    (hwrap : NoWrap bs data s) (hin : InDevice bs size data s) : (kernelView bs data).Broken s := by
  induction h with
  | @bad s hbad =>
    subst hv
    have hlt := hwrap s .first
    exact .bad fun hgood => hbad (good_fsckView hlt (hin s .first) hgood)
  | @next s hgood hne _ ih =>
    subst hv
    have hlt := hwrap s .first
    rw [header_fsckView hlt] at hne ih
    by_cases hgood' : (kernelView bs data).Good s
    · exact .next hgood' hne
        (ih (fun t ht => hwrap t (ht.of_next hne)) fun t ht => hin t (ht.of_next hne))
    · exact .bad hgood'

end Views

/-- The two views tell the same: both chains are broken, or both list the entries. -/
def SameStory (bs size : ℕ) (data : Block) (s : ℕ) : Prop :=
  (s ≠ 0 ∧ (kernelView bs data).Broken s ∧ (fsckView bs size data).Broken s) ∨
    ∃ es, (fsckView bs size data).WellFormed s es ∧
      (s = 0 ∧ es = [] ∨ s ≠ 0 ∧ (kernelView bs data).WellFormed s es)

theorem sameStory_iff {bs size s : ℕ} {data : Block} (hin : InDevice bs size data s) :
    SameStory bs size data s ↔ AgreeableChain bs size data s := by
  by_cases hwrap : NoWrap bs data s
  · rw [AgreeableChain, or_iff_left fun h => h.1 hwrap, and_iff_right hwrap]
    constructor
    · rintro (⟨hs, -, hbroken⟩ | ⟨es, hwell, ⟨hs, rfl⟩ | ⟨hs, hwell'⟩⟩)
      · exact .inl ⟨hs, .inr hbroken⟩
      · subst hs
        exact .inr ⟨rfl, hwell⟩
      · exact .inl ⟨hs, .inl ⟨es, hwell'⟩⟩
    · rintro (⟨hs, ⟨es, hwell⟩ | hbroken⟩ | ⟨rfl, hwell⟩)
      · exact .inr ⟨es, wellFormed_fsckView hwell rfl hwrap hin, .inr ⟨hs, hwell⟩⟩
      · exact .inl ⟨hs, broken_kernelView hbroken rfl hwrap hin, hbroken⟩
      · exact .inr ⟨[], hwell, .inl ⟨rfl, rfl⟩⟩
  · rw [AgreeableChain, or_iff_right fun h => hwrap h.1, and_iff_right hwrap]
    rfl

section Agree

variable {env : Env} {super : SuperBlockWire} {w : World}

/-- The readers agree exactly when their views tell the same. -/
theorem freeListsAgree_iff (fd : OpenFile) (henv : env.Grants) (hbs : w.bSize = super.blockSize)
    (hdev : w.Shows fd.data) (hs : w.sbi.freeListOffset = super.freeListOffset)
    (hprinted : fd.printed = []) :
    FreeListsAgree env fd super w ↔
      SameStory super.blockSize fd.size fd.data super.freeListOffset := by
  have hgrants : ∀ n, { env with fuel := n }.Grants := fun _ => ⟨henv.io, henv.kzalloc⟩
  rw [FreeListsAgree, hs]
  constructor
  · rintro ⟨fuel, res, fd', res', w', hfsck, hkernel, hres, hes⟩
    have hkernel' := spfsFreeInit_loads (hgrants fuel) hdev hkernel
    rw [hbs] at hkernel'
    rcases fsckFreeListDo_loads hfsck with ⟨hzero, es, hwell, heq⟩ | ⟨hne, hbroken⟩
    · obtain ⟨-, es', hes', hfl⟩ | ⟨hne', -⟩ := hkernel'
      · have hsame := hes hzero
        rw [heq, hprinted, List.append_nil, hfl, root_foldl_push, List.append_nil,
          List.reverse_inj] at hsame
        subst hsame
        exact .inr ⟨es, hwell, hes'⟩
      · exact absurd (hres.mp hzero) hne'
    · obtain ⟨hzero', -⟩ | ⟨-, hs0, hbroken'⟩ := hkernel'
      · exact absurd (hres.mpr hzero') hne
      · exact .inl ⟨hs0, hbroken', hbroken⟩
  · intro hstory
    have hends : ∃ n, (fsckView super.blockSize fd.size fd.data).EndsWithin n
        super.freeListOffset ∧ (super.freeListOffset = 0 ∨ super.freeListOffset ≠ 0 ∧
          (kernelView w.bSize fd.data).EndsWithin n super.freeListOffset) := by
      rw [hbs]
      rcases hstory with ⟨hs0, hk, hf⟩ | ⟨es, hf, ⟨hs0, -⟩ | ⟨hs0, hk⟩⟩
      · obtain ⟨m, hm⟩ := hf.endsWithin
        obtain ⟨n, hn⟩ := hk.endsWithin
        exact ⟨max m n, hm.mono (Nat.le_max_left _ _),
          .inr ⟨hs0, hn.mono (Nat.le_max_right _ _)⟩⟩
      · obtain ⟨m, hm⟩ := hf.endsWithin
        exact ⟨m, hm, .inl hs0⟩
      · obtain ⟨m, hm⟩ := hf.endsWithin
        obtain ⟨n, hn⟩ := hk.endsWithin
        exact ⟨max m n, hm.mono (Nat.le_max_left _ _),
          .inr ⟨hs0, hn.mono (Nat.le_max_right _ _)⟩⟩
    obtain ⟨n, hf, hk⟩ := hends
    obtain ⟨res, fd', hfsck⟩ := fsckFreeListDo_returns hf rfl
    obtain ⟨res', w', hkernel⟩ := spfsFreeInit_returns (hgrants n) rfl hdev hk
    have hkernel' := spfsFreeInit_loads (hgrants n) hdev hkernel
    rw [hbs] at hkernel'
    refine ⟨n, res, fd', res', w', hfsck, hkernel, ?_⟩
    rcases hstory with ⟨hs0, hk, hf⟩ | ⟨es, hf, hk⟩
    · have hres : res ≠ 0 := by
        rcases fsckFreeListDo_loads hfsck with ⟨-, es, hwell, -⟩ | ⟨hne, -⟩
        · exact absurd hf hwell.not_broken
        · exact hne
      have hres' : res' ≠ 0 := by
        obtain ⟨-, es, ⟨h0, -⟩ | ⟨-, hwell⟩, -⟩ | ⟨hne, -⟩ := hkernel'
        · exact absurd h0 hs0
        · exact absurd hk hwell.not_broken
        · exact hne
      exact ⟨iff_of_false hres hres', fun h => absurd h hres⟩
    · obtain ⟨hres, heq⟩ : res = 0 ∧ fd'.printed = es.reverse := by
        rcases fsckFreeListDo_loads hfsck with ⟨hzero, es', hwell, heq⟩ | ⟨-, hbroken⟩
        · rw [hf.unique hwell, heq, hprinted, List.append_nil]
          exact ⟨hzero, rfl⟩
        · exact absurd hbroken hf.not_broken
      obtain ⟨hres', heq'⟩ : res' = 0 ∧ w'.sbi.freeList.root = es.reverse := by
        obtain ⟨hzero, es', hes', hfl⟩ | ⟨-, hs0, hbroken⟩ := hkernel'
        · have hsame : es' = es := by
            rcases hk with ⟨hs0, rfl⟩ | ⟨hs0, hwell⟩
            · rcases hes' with ⟨-, rfl⟩ | ⟨hs0', -⟩
              · rfl
              · exact absurd hs0 hs0'
            · rcases hes' with ⟨hs0', -⟩ | ⟨-, hwell'⟩
              · exact absurd hs0' hs0
              · exact hwell'.unique hwell
          subst hsame
          rw [hfl, root_foldl_push, List.append_nil]
          exact ⟨hzero, rfl⟩
        · rcases hk with ⟨hs0', -⟩ | ⟨-, hwell⟩
          · exact absurd hs0' hs0
          · exact absurd hbroken hwell.not_broken
      exact ⟨iff_of_true hres hres', fun _ => by rw [heq, heq']⟩

end Agree

/-- The check of `fsck` and the loader of the kernel agree on the free list of an
image, whose super block both have read, exactly on the chains described above. -/
theorem fsckFreeList_agrees_iff {env : Env} (henv : env.Grants) {fd fd' : OpenFile}
    {junk super : SuperBlockWire} {w₀ w₁ w : World} (hopen : fd.printed = [])
    (hread : (readSuperBlock junk).run fd = .ok (some super) fd') (hdev₀ : w₀.Shows fd.data)
    (hinit : (spfsSuperBlockInit env 0).run w₀ = .ok 0 w₁)
    (hbs : w.bSize = w₁.sbi.blockSize) (hdev : w.Shows fd.data) (hsbi : w.sbi = w₁.sbi)
    (hin : InDevice super.blockSize fd.size fd.data super.freeListOffset) :
    FreeListsAgree env fd' super w ↔
      AgreeableChain super.blockSize fd.size fd.data super.freeListOffset := by
  obtain ⟨hsuper, rfl⟩ := readSuperBlock_eq_some hread
  have hsame : super.Describes w₁.sbi := by
    obtain ⟨w', hrun, hlogs⟩ := run_spfsSuperBlockInit 0 (henv.io w₀.time 0)
    rw [hinit] at hrun
    injection hrun with _ hw
    subst hw
    have hfield : ∀ pos, pos + 4 ≤ 28 → (w₀.disk 0).read pos 4 = fd.data.read pos 4 := by
      intro pos hpos
      have hle := w₀.le_bSize
      rw [hdev₀.read (by omega), Nat.zero_mul, Nat.zero_add]
    rw [hsuper, hlogs.sbi, SuperBlockWire.Describes]
    simp [parsedSuper, wireSuper, hfield]
  obtain ⟨-, -, hblock, -, -, -, hoffset⟩ := hsame
  rw [freeListsAgree_iff (fd.seek 28) henv (by rw [hbs, hblock]) hdev (by rw [hsbi, hoffset]) hopen]
  exact sameStory_iff hin

/-! ## A table that goes on past its block -/

/-- An image whose free list block says that it has `n` entries. -/
def countImage (n : ℕ) : Block :=
  imageWith 512 (beEncode 4 spookyFsFlMagic ++ beEncode 4 n ++ beEncode 4 0) fun _ => 0

/-- The image in a file of 4096 bytes. -/
def countFile (n : ℕ) : OpenFile where
  data := countImage n
  size := 4096
  blksize := 512
  pos := 0
  printed := []

/-- A device that is about to be mounted. -/
def deviceWorld (data : Block) : World where
  bSize := 512
  bSize_bounds := World.bounds_512
  disk := cut 512 data
  log := []
  sbi := .zero
  inodes := fun _ => none
  slab := []

theorem deviceWorld_shows (data : Block) : (deviceWorld data).Shows data := fun _ _ _ => rfl

/-- A chain whose first block has no next one stays there. -/
theorem Referenced.eq_first {v : FreeListView} {s t : ℕ} (hnext : (v.header s).next = 0)
    (h : Referenced v s t) : t = s := by
  induction h with
  | first => rfl
  | next _ hne ih => exact absurd (ih ▸ hnext) hne

theorem inDevice_countImage {n : ℕ} (h : ((kernelView 512 (countImage n)).header 1).next = 0) :
    InDevice 512 4096 (countImage n) 1 := by
  intro t ht
  rw [ht.eq_first h]
  decide

/-- Both readers have read the super block of the image. -/
theorem superRead_countImage (n : ℕ) : ∃ w₁,
    (readSuperBlock mkfsSuper).run (countFile n) =
      .ok (some (superFor 512 0)) ((countFile n).seek 28) ∧
    fsckSuperBlock (superFor 512 0) = 0 ∧
    (spfsSuperBlockInit (.calm 9) 0).run (deviceWorld (countImage n)) = .ok 0 w₁ ∧
    w₁.bSize = 512 ∧ w₁.sbi.blockSize = 512 ∧ w₁.sbi.freeListOffset = 1 ∧
    w₁.Shows (countImage n) := by
  obtain ⟨hrun, hfsck⟩ := readSuperBlock_imageWith (countFile n) (by decide) (by decide)
    ⟨1, rfl⟩ rfl (show 28 ≤ 4096 by decide) mkfsSuper
  obtain ⟨w₁, hinit, hsuper, hdisk, hb⟩ := spfsSuperBlockInit_imageWith (.calm 9)
    (by decide) (by decide) rfl (deviceWorld_shows (countImage n)) 0
  obtain ⟨-, -, hblock, -, -, -, hoffset⟩ := hsuper
  refine ⟨w₁, hrun, hfsck, hinit, hb, hblock.symm, hoffset.symm, fun s i hi => ?_⟩
  rw [hb] at hi ⊢
  rw [hdisk]
  exact deviceWorld_shows _ s i hi

theorem fsckFreeList_agrees_iff_oneEntry : ∃ w₁,
    (spfsSuperBlockInit (.calm 9) 0).run (deviceWorld (countImage 1)) = .ok 0 w₁ ∧
    (FreeListsAgree (.calm 9) ((countFile 1).seek 28) (superFor 512 0) w₁ ↔
      AgreeableChain 512 4096 (countImage 1) 1) := by
  obtain ⟨w₁, hread, -, hinit, hb, hblock, -, hdev⟩ := superRead_countImage 1
  exact ⟨w₁, hinit, fsckFreeList_agrees_iff (Env.calm_grants 9) rfl hread (deviceWorld_shows _)
    hinit (hb.trans hblock.symm) hdev rfl (inDevice_countImage (by decide))⟩

/-- A block of 512 bytes has room for 62 entries. When its header says 63, `fsck`
reads the last one from the block behind it and is content; the kernel refuses. -/
theorem not_freeListsAgree_overfull : ∃ w₁,
    (readSuperBlock mkfsSuper).run (countFile 63) =
      .ok (some (superFor 512 0)) ((countFile 63).seek 28) ∧
    fsckSuperBlock (superFor 512 0) = 0 ∧
    (spfsSuperBlockInit (.calm 9) 0).run (deviceWorld (countImage 63)) = .ok 0 w₁ ∧
    InDevice 512 4096 (countImage 63) 1 ∧
    ¬ FreeListsAgree (.calm 9) ((countFile 63).seek 28) (superFor 512 0) w₁ := by
  obtain ⟨w₁, hread, hfsck, hinit, hb, hblock, hoffset, hdev⟩ := superRead_countImage 63
  refine ⟨w₁, hread, hfsck, hinit, inDevice_countImage (by decide), ?_⟩
  rw [freeListsAgree_iff ((countFile 63).seek 28) (Env.calm_grants 9) hb hdev hoffset rfl]
  have haccepted : (fsckView 512 4096 (countImage 63)).WellFormed 1
      ((fsckView 512 4096 (countImage 63)).table 1) := .last (by decide) (by decide)
  have hrefused : (kernelView 512 (countImage 63)).Broken 1 := .bad (by decide)
  rintro (⟨-, -, hbroken⟩ | ⟨es, -, ⟨h, -⟩ | ⟨-, hwell⟩⟩)
  · exact haccepted.not_broken hbroken
  · cases h
  · exact hwell.not_broken hrefused

end Spfs
