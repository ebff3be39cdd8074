-- SUMMARY: Whatever calls a mounted file system gets, every block that it takes comes off the free list, and none comes off twice.
import Spfs.Concurrent
import Spfs.FreeList.Loaded
import Spfs.Remount
import Spfs.Vfs

/-!
# Space over runs of calls

The log says which blocks were handed out. Over any run of calls, returning or not, in any
environments, these are grants from the region that the free list describes: they lie in
it, no two have a block in common, and the free list at the end is what is left.
-/

namespace Spfs

open EStateM (Within run_bind_eq_ok)

/-- The sector and the number of the blocks that an event hands out. -/
def Event.grant : Event → Option (ℕ × ℕ)
  | .alloc sector blocks => some (sector, blocks)
  | _ => none

/-- What the events of a log hand out, the latest first. -/
def grants (es : List Event) : List (ℕ × ℕ) := es.filterMap Event.grant

@[simp] theorem grants_nil : grants [] = [] := rfl

@[simp] theorem grants_append (es es' : List Event) : grants (es ++ es') = grants es ++ grants es' :=
  List.filterMap_append

theorem grant_of_not_writes {e : Event} (he : e.writes = false) : e.grant = none := by
  cases e <;> first | rfl | cases he

theorem grants_of_grant_none {e : Event} (he : e.grant = none) : grants [e] = [] := by
  rw [grants, List.filterMap_cons_none he, List.filterMap_nil]

/-- What a free list has to be for its blocks to be handed out safely. -/
structure FreeList.Sound (fl : FreeList) : Prop where
  disjoint : DisjointNodes fl.root
  start : ∀ node ∈ fl.root, 1 ≤ node.start
  counter : fl.CounterOk

/-- From one list to the other the grants were handed out: they are disjoint parts of
what was free, and the rest is free. -/
structure Handed (fl : FreeList) (gs : List (ℕ × ℕ)) (fl' : FreeList) : Prop where
  sound : fl'.Sound
  sectors : ∀ g ∈ gs, g.1 ≠ 0
  shrinks : List.Forall₂ FreeNode.Shrinks fl.root fl'.root
  run : Region.Run (region fl.root) (gs.map grantRange) (region fl'.root)
  conserved : totalBlocks fl'.root + (gs.map Prod.snd).sum = totalBlocks fl.root

namespace Handed

variable {fl fl' fl'' : FreeList} {gs gs' : List (ℕ × ℕ)}

theorem nil (h : fl.Sound) : Handed fl [] fl :=
  ⟨h, fun _ hg => absurd hg List.not_mem_nil, List.forall₂_same.mpr fun _ _ => .refl _, .nil, rfl⟩

theorem append (h : Handed fl gs fl') (h' : Handed fl' gs' fl'') : Handed fl (gs' ++ gs) fl'' where
  sound := h'.sound
  sectors g hg := (List.mem_append.mp hg).elim (h'.sectors g) (h.sectors g)
  shrinks := shrinks_trans h.shrinks h'.shrinks
  run := by
    rw [List.map_append]
    exact h.run.append h'.run
  conserved := by
    have := h.conserved
    have := h'.conserved
    rw [List.map_append, List.sum_append]
    omega

/-- One call of the allocator. -/
theorem alloc (h : fl.Sound) {n r : ℕ} (hcall : spfsFreeAlloc fl n = (r, fl')) :
    Handed fl (if r ≠ 0 then [(r, n)] else []) fl' := by
  rcases spfsFreeAlloc_cases h.disjoint hcall with ⟨rfl, rfl⟩ | ⟨hn, hcarved, hblocks⟩
  · exact nil h
  have hr : r ≠ 0 := Nat.one_le_iff_ne_zero.mp (hcarved.pos h.start)
  have hinv : AllocInv fl [(r, n)] fl' := (AllocInv.init h.counter).step h.disjoint h.start hcall
  rw [if_pos hr]
  refine ⟨⟨hinv.disjoint h.disjoint, hinv.one_le_start h.start, hinv.counter⟩, ?_, hinv.shrinks, ?_, ?_⟩
  · exact fun g hg => by rwa [List.mem_singleton.mp hg]
  · simpa [successful, hr] using hinv.run
  · simpa [successful, hr] using hinv.conserved

/-- No block is handed out twice, and all of them were free. -/
theorem disjoint (h : Handed fl gs fl') : (gs.map grantRange).Pairwise Disjoint := h.run.pairwise_disjoint

theorem subset (h : Handed fl gs fl') {g : ℕ × ℕ} (hg : g ∈ gs) : grantRange g ⊆ region fl.root :=
  h.run.subset_of_mem (List.mem_map_of_mem hg)

end Handed

/-- What the log says was handed out between two states came off the free list, if that
could be handed out safely. -/
def SpaceKept (w w' : World) : Prop :=
  ∃ es, w'.log = es ++ w.log ∧ (w.sbi.freeList.Sound → Handed w.sbi.freeList (grants es) w'.sbi.freeList)

namespace SpaceKept

variable {w w' w'' : World}

theorem of_same (hlog : w'.log = w.log) (hfl : w'.sbi.freeList = w.sbi.freeList) : SpaceKept w w' :=
  ⟨[], hlog, fun h => by rw [hfl]; exact .nil h⟩

theorem addEvent (w : World) {e : Event} (he : e.grant = none) : SpaceKept w (w.addEvent e) :=
  ⟨[e], rfl, fun h => by rw [grants_of_grant_none he]; exact .nil h⟩

theorem trans (h : SpaceKept w w') (h' : SpaceKept w' w'') : SpaceKept w w'' := by
  obtain ⟨es, hlog, hes⟩ := h
  obtain ⟨es', hlog', hes'⟩ := h'
  refine ⟨es' ++ es, by rw [hlog', hlog, List.append_assoc], fun hsound => ?_⟩
  rw [grants_append]
  exact (hes hsound).append (hes' (hes hsound).sound)

theorem freeAlloc (blocks : ℕ) : Within SpaceKept (freeAlloc blocks) := by
  intro w
  have halloc (hsound : w.sbi.freeList.Sound) : Handed w.sbi.freeList
      (if (spfsFreeAlloc w.sbi.freeList blocks).1 ≠ 0 then [((spfsFreeAlloc w.sbi.freeList blocks).1, blocks)]
        else []) (spfsFreeAlloc w.sbi.freeList blocks).2 :=
    Handed.alloc hsound rfl
  rw [run_freeAlloc]
  by_cases hr : (spfsFreeAlloc w.sbi.freeList blocks).1 ≠ 0
  · refine ⟨[.alloc (spfsFreeAlloc w.sbi.freeList blocks).1 blocks], ?_, fun hsound => ?_⟩
    · simp [hr]
    · have := halloc hsound
      rw [if_pos hr] at this
      simpa [hr, grants, Event.grant] using this
  · refine ⟨[], ?_, fun hsound => ?_⟩
    · simp [hr]
    · have := halloc hsound
      rw [if_neg hr] at this
      simpa [hr] using this

end SpaceKept

instance : Service SpaceKept where
  refl _ := .of_same rfl rfl
  trans _ _ _ := .trans
  addEvent w _ he := .addEvent w (grant_of_not_writes he)
  dirty w _ := .addEvent w rfl
  freeAlloc := SpaceKept.freeAlloc
  setBlock _ _ _ := .of_same rfl rfl
  setTreeStart _ _ _ := .of_same rfl rfl
  setId _ _ := .of_same rfl rfl
  cache _ _ _ := .of_same rfl rfl

/-- Over any run of calls that begins with a sound free list. -/
theorem runCalls_handed {w : World} (hsound : w.sbi.freeList.Sound) (calls : List (Env × VfsCall)) :
    ∃ es, (runCalls w calls).log = es ++ w.log ∧
      Handed w.sbi.freeList (grants es) (runCalls w calls).sbi.freeList := by
  obtain ⟨es, hlog, hes⟩ := runCalls_service (R := SpaceKept) w calls
  exact ⟨es, hlog, hes hsound⟩

/-! ## The free list of a session -/

/-- The free entries of a device, as its super block and the chain behind it say. -/
def DeviceLists (data : Block) (es : List FreeNode) : Prop :=
  ListsFree (storedSuper data).blockSize data (storedSuper data).freeListOffset es

/-- The block size, the tree and the free list are the same, and so is the device. -/
structure SameGeometry (w w' : World) : Prop where
  device : SameDevice w w'
  bSize : w'.bSize = w.bSize
  tree : w'.sbi.tree = w.sbi.tree
  freeList : w'.sbi.freeList = w.sbi.freeList

instance : IsPreorder World SameGeometry where
  refl w := ⟨refl_of SameDevice w, rfl, rfl, rfl⟩
  trans _ _ _ h h' := ⟨trans_of SameDevice h.device h'.device, h'.bSize.trans h.bSize, h'.tree.trans h.tree,
    h'.freeList.trans h.freeList⟩

instance : Reading SameGeometry where
  addEvent _ _ _ := ⟨rfl, rfl, rfl, rfl⟩
  cache _ _ _ := ⟨rfl, rfl, rfl, rfl⟩

section Mount

variable {env : Env} {w w' : World}

theorem within_mountRoot : Within SameGeometry (mountRoot env) := by
  unfold mountRoot
  refine Within.get.bind fun w => (spfsInodeById_reading env _).bind fun r => ?_
  rcases r with e | _ | root
  · exact Within.pure _
  · refine (spfsNewInode_reading env (fun _ _ => ⟨rfl, rfl, rfl, rfl⟩) none rootMode).bind fun r => ?_
    cases r with
    | error e => exact Within.pure _
    | ok root =>
      exact (within_getInode root).bind fun i => Within.bind (fun w => ⟨rfl, rfl, rfl, rfl⟩) fun _ => Within.pure _
  · exact Within.pure _

theorem spfsInodeById_noMemory {needle : ℕ} {e : ℤ} (h : (spfsInodeById env needle).run w = .ok (.error e) w') :
    e = -ENOMEM := by
  obtain ⟨obj, w₁, -, h₁⟩ := run_bind_eq_ok.mp h
  cases obj with
  | none =>
    cases h₁
    rfl
  | some p =>
    obtain ⟨i, w₂, -, h₂⟩ := run_bind_eq_ok.mp h₁
    split at h₂
    · cases h₂
    obtain ⟨⟨res, result⟩, w₃, -, h₃⟩ := run_bind_eq_ok.mp h₂
    dsimp only at h₃
    split at h₃
    · obtain ⟨_, w₄, -, h₄⟩ := run_bind_eq_ok.mp h₃
      cases h₄
    · obtain ⟨_, w₄, -, h₄⟩ := run_bind_eq_ok.mp h₃
      obtain ⟨_, w₅, -, h₅⟩ := run_bind_eq_ok.mp h₄
      obtain ⟨_, w₆, -, h₆⟩ := run_bind_eq_ok.mp h₅
      cases h₆

theorem spfsNewInode_noMemory {parent : Option ℕ} {mode : ℕ} {e : ℤ}
    (h : (spfsNewInode env parent mode).run w = .ok (.error e) w') : e = -ENOMEM := by
  obtain ⟨_, w₀, -, h₀⟩ := run_bind_eq_ok.mp h
  obtain ⟨_, w₁, -, h₁⟩ := run_bind_eq_ok.mp h₀
  obtain ⟨obj, w₂, -, h₂⟩ := run_bind_eq_ok.mp h₁
  cases obj with
  | none =>
    cases h₂
    rfl
  | some p =>
    obtain ⟨i, w₃, -, h₃⟩ := run_bind_eq_ok.mp h₂
    split at h₃
    · cases parent with
      | none =>
        obtain ⟨_, w₄, -, h₄⟩ := run_bind_eq_ok.mp h₃
        cases setUpNewInode_returns h₄
      | some parent =>
        obtain ⟨_, w₄, -, h₄⟩ := run_bind_eq_ok.mp h₃
        obtain ⟨_, w₅, -, h₅⟩ := run_bind_eq_ok.mp h₄
        cases setUpNewInode_returns h₅
    · obtain ⟨_, w₄, -, h₄⟩ := run_bind_eq_ok.mp h₃
      cases h₄
      rfl

/-- The root is an error pointer only for want of memory. -/
theorem mountRoot_error {e : ℤ} (h : (mountRoot env).run w = .ok (.error e) w') : e = -ENOMEM := by
  obtain ⟨_, w₀, -, h₀⟩ := run_bind_eq_ok.mp h
  obtain ⟨r, w₁, hbyId, h₁⟩ := run_bind_eq_ok.mp h₀
  rcases r with e' | _ | root
  · cases h₁
    exact spfsInodeById_noMemory hbyId
  · obtain ⟨r, w₂, hnew, h₂⟩ := run_bind_eq_ok.mp h₁
    cases r with
    | error e' =>
      cases h₂
      exact spfsNewInode_noMemory hnew
    | ok root =>
      obtain ⟨_, w₃, -, h₃⟩ := run_bind_eq_ok.mp h₂
      obtain ⟨_, w₄, -, h₄⟩ := run_bind_eq_ok.mp h₃
      cases h₄
  · cases h₁

/-- What a mount that succeeds has taken up, in any environment. -/
theorem spfsFillSuperBlock_geometry (h : (spfsFillSuperBlock env).run w = .ok 0 w') :
    ∃ es, DeviceLists w.device es ∧ w'.device = w.device ∧ w'.bSize = (storedSuper w.device).blockSize ∧
      w'.sbi.tree = ⟨(storedSuper w.device).blockSize, 1, (storedSuper w.device).btreeOffset⟩ ∧
      w'.sbi.freeList = es.foldl FreeList.push ⟨0, []⟩ := by
  obtain ⟨w₁, w₂, hread, hrest⟩ := spfsFillSuperBlock_zero h
  have htaken := readDevice_zero hread
  have hdevice : w.withZeroSuper.device = w.device := rfl
  obtain ⟨w₀, hsame, hb, hload⟩ := htaken.list
  have hdev₀ : w₀.Shows w.device := by
    have hshows := w₀.shows_device
    rwa [show w₀.device = w.device from hsame] at hshows
  obtain ⟨es, hes, hlogs⟩ := spfsFreeInit_zero hload hdev₀
  have hfl₁ : w₁.sbi.freeList = es.foldl FreeList.push ⟨0, []⟩ := by
    rw [hlogs.sbi]
    rfl
  have hgeo : SameGeometry w₁ w' := by
    rcases hrest with hroot | ⟨root, hroot, hmodify⟩
    · exact absurd (mountRoot_error hroot) (by decide)
    · exact trans_of SameGeometry (within_mountRoot.of_ok hroot)
        ((modifyInode_reading root _).of_ok hmodify)
  refine ⟨es, ?_, ?_, ?_, ?_, ?_⟩
  · rw [hb, htaken.bSize, hdevice] at hes
    exact hes
  · exact within_spfsFillSuperBlock.of_ok h
  · rw [hgeo.bSize, htaken.bSize, hdevice]
  · rw [hgeo.tree, htaken.tree, hdevice]
  · rw [hgeo.freeList, hfl₁]

/-! ## Sessions -/

/-- Entries that can be handed out safely are loaded as a list that can. -/
theorem sound_foldl_push {es : List FreeNode} (hd : DisjointNodes es) (hstart : ∀ node ∈ es, 1 ≤ node.start) :
    (es.foldl FreeList.push ⟨0, []⟩).Sound := by
  have hcounter (fl : FreeList) (hfl : fl.CounterOk) : (es.foldl FreeList.push fl).CounterOk := by
    clear hd hstart
    induction es generalizing fl with
    | nil => exact hfl
    | cons e es ih => exact ih _ (hfl.push e)
  refine ⟨?_, ?_, hcounter _ rfl⟩
  · rw [root_foldl_push, List.append_nil, DisjointNodes, List.pairwise_reverse]
    exact hd.imp fun h => h.symm
  · rw [root_foldl_push, List.append_nil]
    exact fun node hnode => hstart node (List.mem_reverse.mp hnode)

theorem region_reverse (l : List FreeNode) : region l.reverse = region l := by
  ext s
  simp [region]

/-- What the calls of a session were given is theirs alone: disjoint parts of the free
entries of the device. What is left of these is free at the end. -/
structure HandsOut (es : List FreeNode) (given : List (ℕ × ℕ)) (fl : FreeList) : Prop where
  sectors : ∀ g ∈ given, g.1 ≠ 0
  inside : ∀ g ∈ given, grantRange g ⊆ region es
  disjoint : (given.map grantRange).Pairwise Disjoint
  rest : region fl.root = region es \ ⋃ g ∈ given.map grantRange, g
  conserved : totalBlocks fl.root + (given.map Prod.snd).sum = totalBlocks es
  counter : fl.CounterOk

/-- What was handed out of a loaded list was handed out of its entries. -/
theorem Handed.handsOut {es : List FreeNode} {gs : List (ℕ × ℕ)} {fl : FreeList}
    (h : Handed (es.foldl FreeList.push ⟨0, []⟩) gs fl) : HandsOut es gs fl := by
  have hroot : (es.foldl FreeList.push ⟨0, []⟩).root = es.reverse := by
    rw [root_foldl_push, List.append_nil]
  refine ⟨h.sectors, fun g hg => ?_, h.disjoint, ?_, ?_, h.sound.counter⟩
  · have := h.subset hg
    rwa [hroot, region_reverse] at this
  · have := h.run.rest_eq
    rwa [hroot, region_reverse] at this
  · have := h.conserved
    rwa [hroot, totalBlocks_reverse] at this

/-- The list of a mounted device is the one that its entries are loaded as. -/
theorem mounted_freeList {es : List FreeNode} (hlist : DeviceLists w.device es)
    (hmount : (spfsFillSuperBlock env).run w = .ok 0 w') :
    w'.sbi.freeList = es.foldl FreeList.push ⟨0, []⟩ := by
  obtain ⟨es', hlist', -, -, -, hfl⟩ := spfsFillSuperBlock_geometry hmount
  obtain rfl := hlist.unique hlist'
  exact hfl

/-- A session on any device whose free entries are disjoint, with any calls in any
environments: no block of the device is handed out twice, none that was not free is
handed out, and none is lost from the list. -/
theorem session_handsOut {es : List FreeNode} (hlist : DeviceLists w.device es) (hd : DisjointNodes es)
    (hstart : ∀ node ∈ es, 1 ≤ node.start) (hmount : (spfsFillSuperBlock env).run w = .ok 0 w')
    (calls : List (Env × VfsCall)) :
    ∃ ev, (runCalls w' calls).log = ev ++ w'.log ∧
      HandsOut es (grants ev) (runCalls w' calls).sbi.freeList := by
  have hfl := mounted_freeList hlist hmount
  have hsound : w'.sbi.freeList.Sound := by
    rw [hfl]
    exact sound_foldl_push hd hstart
  obtain ⟨ev, hlog, hev⟩ := runCalls_handed hsound calls
  rw [hfl] at hev
  exact ⟨ev, hlog, hev.handsOut⟩

/-- A session that only reads cannot be told from none, in whatever environments its calls
are made: it writes nothing, and whoever mounts the device afterwards takes up the same. -/
theorem reading_session (hmount : (spfsFillSuperBlock env).run w = .ok 0 w') {calls : List (Env × VfsCall)}
    (hreads : ∀ call ∈ calls, call.2.reads = true) :
    Undisturbed w' (runCalls w' calls) ∧ ∀ env₂ w₂ w₂', w₂.device = (runCalls w' calls).device →
      (spfsFillSuperBlock env₂).run w₂ = .ok 0 w₂' → SameGeometry w' w₂' := by
  have hquiet : Undisturbed w' (runCalls w' calls) := runCalls_reading w' hreads
  refine ⟨hquiet, fun env₂ w₂ w₂' hdevice hmount₂ => ?_⟩
  obtain ⟨es, hlist, hdev, hsize, htree, hfl⟩ := spfsFillSuperBlock_geometry hmount
  obtain ⟨es₂, hlist₂, hdev₂, hsize₂, htree₂, hfl₂⟩ := spfsFillSuperBlock_geometry hmount₂
  have hsame : w₂.device = w.device := by
    rw [hdevice, ← hdev]
    exact hquiet.store.sameDevice
  rw [hsame] at hlist₂ hdev₂ hsize₂ htree₂
  obtain rfl := hlist.unique hlist₂
  exact ⟨hdev₂.trans hdev.symm, hsize₂.trans hsize.symm, htree₂.trans htree.symm, hfl₂.trans hfl.symm⟩

end Mount

section Image

variable {env : Env} {fd fd' : OpenFile} {w w' : World}

theorem storedSuper_freshImage {blksize blocks : ℕ} {old : Block} (h : 512 ≤ blksize) (h' : blksize < 2 ^ 32) :
    storedSuper (freshImage blksize blocks old) = mkfsSuperBlockOf blksize .zero :=
  parsedSuper_imageWith h h' _

/-- A fresh image lists one entry behind the super block and the free list. -/
theorem deviceLists_freshImage {blksize blocks : ℕ} {old : Block} (h : 512 ≤ blksize) (h' : blksize < 2 ^ 32) :
    DeviceLists (freshImage blksize blocks old) [⟨2, blocks % 2 ^ 32⟩] := by
  have hview : (kernelView blksize (freshImage blksize blocks old)).data = freshImage blksize blocks old := rfl
  obtain ⟨hgood, hnext, htable⟩ := good_freshImage hview (Nat.one_mul _) (by
    show blksize + 20 ≤ 1 * blksize + blksize
    omega)
  rw [DeviceLists, storedSuper_freshImage h h']
  refine .inr ⟨Nat.one_ne_zero, ?_⟩
  have hlast := FreeListView.WellFormed.last hgood hnext
  rw [htable] at hlast
  exact hlast

theorem deviceLists_mkfs (hpos : fd.pos = 0) (hblk : 512 ≤ fd.blksize) (hblk' : fd.blksize < 2 ^ 32)
    (hmkfs : mkfsMain.run fd = .ok 0 fd') : DeviceLists fd'.data [⟨2, fd.dataBlocks % 2 ^ 32⟩] := by
  rw [mkfsMain_freshImage hpos hblk hblk' hmkfs]
  exact deviceLists_freshImage hblk hblk'

/-- In a session on an image of `mkfs`, in any environment, all blocks that any calls are given
lie on the device behind the super block and the free list, and none is given twice. -/
theorem mkfs_session_handsOut (hpos : fd.pos = 0) (hblk : 512 ≤ fd.blksize) (hblk' : fd.blksize < 2 ^ 32)
    (hmkfs : mkfsMain.run fd = .ok 0 fd') (hdev : w.device = fd'.data)
    (hmount : (spfsFillSuperBlock env).run w = .ok 0 w') (calls : List (Env × VfsCall)) :
    ∃ ev, (runCalls w' calls).log = ev ++ w'.log ∧
      HandsOut [⟨2, fd.dataBlocks % 2 ^ 32⟩] (grants ev) (runCalls w' calls).sbi.freeList ∧
      ∀ g ∈ grants ev, ∀ s ∈ grantRange g, 2 ≤ s ∧ (s + 1) * fd.blksize ≤ fd.size := by
  have hlist := deviceLists_mkfs hpos hblk hblk' hmkfs
  rw [← hdev] at hlist
  have hfl := mounted_freeList hlist hmount
  have hsound : w'.sbi.freeList.Sound := by
    rw [hfl]
    exact sound_foldl_push (List.pairwise_singleton _ _) (by simp)
  obtain ⟨ev, hlog, hev⟩ := runCalls_handed hsound calls
  rw [hfl] at hev
  refine ⟨ev, hlog, hev.handsOut, fun g hg s hs => ?_⟩
  have hs := hev.handsOut.inside g hg hs
  simp only [region_cons, region_nil, Set.union_empty, FreeNode.range, Set.mem_Ico] at hs
  refine ⟨hs.1, ?_⟩
  have hle : fd.dataBlocks % 2 ^ 32 ≤ fd.dataBlocks := Nat.mod_le _ _
  have hdiv : (s + 1) * fd.blksize ≤ fd.size / fd.blksize * fd.blksize := by
    refine Nat.mul_le_mul_right _ ?_
    have hdef : fd.dataBlocks = fd.size / fd.blksize - 2 := rfl
    omega
  exact hdiv.trans (Nat.div_mul_le_self _ _)

end Image

/-- A session on twelve blocks that creates a file, writes to it and frees its inode. -/
def someCalls : List (Env × VfsCall) :=
  [(handsOut 9, .create .create 1 ⟨[97], none⟩ S_IFREG), (.calm 9, .write 2 [1, 2, 3] 0), (.calm 9, .freeInode 2)]

theorem session_handsOut_twelveBlocks : ∃ fd' w' ev, mkfsMain.run twelveBlocks = .ok 0 fd' ∧
    (runCalls w' someCalls).log = ev ++ w'.log ∧
      HandsOut [⟨2, 10⟩] (grants ev) (runCalls w' someCalls).sbi.freeList := by
  obtain ⟨fd', hmkfs⟩ := twelveBlocks_mkfs
  obtain ⟨w', hmount, -⟩ := spfsFillSuperBlock_mkfs rfl (by decide) (by decide) hmkfs
  have hlist : DeviceLists (deviceWorld fd'.data).device [⟨2, 10⟩] := by
    rw [show (deviceWorld fd'.data).device = fd'.data from deviceWorld_device fd'.data []]
    exact deviceLists_mkfs rfl (by decide) (by decide) hmkfs
  obtain ⟨ev, hlog, hout⟩ := session_handsOut hlist (List.pairwise_singleton _ _) (by simp) hmount someCalls
  exact ⟨fd', w', ev, hmkfs, hlog, hout⟩

theorem mkfs_session_handsOut_twelveBlocks : ∃ fd' w' ev, mkfsMain.run twelveBlocks = .ok 0 fd' ∧
    (runCalls w' someCalls).log = ev ++ w'.log ∧
      ∀ g ∈ grants ev, ∀ s ∈ grantRange g, 2 ≤ s ∧ (s + 1) * 4096 ≤ 12 * 4096 := by
  obtain ⟨fd', hmkfs⟩ := twelveBlocks_mkfs
  obtain ⟨w', hmount, -⟩ := spfsFillSuperBlock_mkfs rfl (by decide) (by decide) hmkfs
  obtain ⟨ev, hlog, -, hinside⟩ := mkfs_session_handsOut rfl (by decide) (by decide) hmkfs
    (deviceWorld_device fd'.data []) hmount someCalls
  exact ⟨fd', w', ev, hmkfs, hlog, hinside⟩

theorem reading_session_twelveBlocks : ∃ fd' w', mkfsMain.run twelveBlocks = .ok 0 fd' ∧
    Undisturbed w' (runCalls w' [(.calm 9, .lookup 1 ⟨[97], none⟩), (.calm 9, .freeInode 1)]) := by
  obtain ⟨fd', hmkfs⟩ := twelveBlocks_mkfs
  obtain ⟨w', hmount, -⟩ := spfsFillSuperBlock_mkfs rfl (by decide) (by decide) hmkfs
  exact ⟨fd', w', hmkfs, (reading_session hmount (by decide)).1⟩

end Spfs
