-- SUMMARY: The space that mkfs records of a device, and the sectors that the allocator hands out of it.
import Spfs.FreeList.Exact
import Spfs.Fsck.Agree

/-!
# The space of a device

`mkfs` counts the blocks of a device in `size_t` and stores 32 bits of the count in the only
free entry. The allocator adds the first sector of the entry to what is left of the count.
The sum can need one bit more than the sectors that are stored on the device have.
-/

namespace Spfs

/-! ## What is recorded -/

/-- The blocks of a device behind its super block and its free list. -/
def OpenFile.dataBlocks (fd : OpenFile) : ℕ := fd.size / fd.blksize - 2

/-- When the program exits with 0 the entry counts all blocks, of which there is one at
least, and the program does not exit with 0 when the entry has no room for the count. -/
structure RecordsAllSpace (fd : OpenFile) : Prop where
  stored : ∀ fd', mkfsMain.run fd = .ok 0 fd' →
    (freeEntryAt fd'.data (fd.blksize + 12)).blocks = fd.dataBlocks ∧ 1 ≤ fd.dataBlocks
  refused : 2 ^ 32 ≤ fd.dataBlocks → ∀ fd', mkfsMain.run fd ≠ .ok 0 fd'

section Space

variable {fd fd' : OpenFile}

theorem OpenFile.dataBlocks_eq (fd : OpenFile) :
    (fd.size - 2 * fd.blksize) / fd.blksize = fd.dataBlocks := by
  rw [Nat.mul_comm, Nat.sub_mul_div]
  rfl

/-- The entry of the image has 32 bits of the count. -/
theorem mkfsMain_entry (hpos : fd.pos = 0) (hblk : 512 ≤ fd.blksize) (hblk' : fd.blksize < 2 ^ 32)
    (h : mkfsMain.run fd = .ok 0 fd') :
    freeEntryAt fd'.data (fd.blksize + 12) = ⟨2, fd.dataBlocks % 2 ^ 32⟩ := by
  obtain ⟨-, -, hdata⟩ := run_mkfsMain hpos hblk hblk' h
  rw [fd.dataBlocks_eq] at hdata
  have himage : fd'.data = freshImage fd.blksize fd.dataBlocks fd.data := hdata
  have hentries := @entriesAt_freshImage fd.blksize fd.dataBlocks fd.data
  rw [entriesAt, ← himage] at hentries
  exact (List.cons.inj hentries).1

theorem three_le_of_dataBlocks (hblk : 512 ≤ fd.blksize) (h : 1 ≤ fd.dataBlocks) :
    3 * fd.blksize ≤ fd.size := by
  have hthree : 3 ≤ fd.size / fd.blksize := by
    unfold OpenFile.dataBlocks at h
    omega
  exact (Nat.le_div_iff_mul_le (Nat.lt_of_lt_of_le (by decide) hblk)).mp hthree

/-- All space is recorded exactly on devices with less than `2 ^ 32` data blocks. -/
theorem mkfs_recordsAllSpace_iff (hpos : fd.pos = 0) (hblk : 512 ≤ fd.blksize)
    (hblk' : fd.blksize < 2 ^ 32) : RecordsAllSpace fd ↔ fd.dataBlocks < 2 ^ 32 := by
  constructor
  · intro h
    by_contra hmany
    have hlarge := three_le_of_dataBlocks hblk (le_trans (by decide) (Nat.not_lt.mp hmany))
    obtain ⟨fd', hrun⟩ := mkfsMain_exits_zero fd hpos hblk hblk' hlarge
    exact h.refused (Nat.not_lt.mp hmany) fd' hrun
  · intro hfew
    refine ⟨fun fd' hrun => ?_, fun hmany => absurd hfew (Nat.not_lt.mpr hmany)⟩
    obtain ⟨hthree, -, -⟩ := run_mkfsMain hpos hblk hblk' hrun
    have hpos' : 3 ≤ fd.size / fd.blksize :=
      (Nat.le_div_iff_mul_le (Nat.lt_of_lt_of_le (by decide) hblk)).mpr hthree
    rw [mkfsMain_entry hpos hblk hblk' hrun]
    refine ⟨Nat.mod_eq_of_lt hfew, ?_⟩
    unfold OpenFile.dataBlocks
    omega

theorem mkfs_recordsAllSpace_iff_threeBlocks :
    RecordsAllSpace threeBlocks ↔ threeBlocks.dataBlocks < 2 ^ 32 :=
  mkfs_recordsAllSpace_iff rfl (by decide) (by decide)

/-- A device of 2 TiB with `2 ^ 32` data blocks of 512 bytes. -/
def hugeDevice : OpenFile := { threeBlocks with size := (2 ^ 32 + 2) * 512 }

/-- No block of it is recorded. -/
theorem not_recordsAllSpace_huge :
    ∃ fd', mkfsMain.run hugeDevice = .ok 0 fd' ∧
      (freeEntryAt fd'.data (hugeDevice.blksize + 12)).blocks = 0 ∧ ¬ RecordsAllSpace hugeDevice := by
  obtain ⟨fd', hrun⟩ := mkfsMain_exits_zero hugeDevice rfl (by decide) (by decide) (by decide)
  have hentry : freeEntryAt fd'.data (hugeDevice.blksize + 12) = ⟨2, hugeDevice.dataBlocks % 2 ^ 32⟩ :=
    mkfsMain_entry rfl (by decide) (by decide) hrun
  refine ⟨fd', hrun, congrArg FreeNode.blocks hentry, fun h => ?_⟩
  exact h.refused (by decide) fd' hrun

end Space

/-! ## What is handed out -/

/-- The sector is the same after it was stored and read, wherever there is room. -/
def SurvivesOnDisk (s : ℕ) : Prop :=
  ∀ bSize pos (b : Block), pos + 8 ≤ bSize →
    ∃ b', (spfsSbWriteU32 bSize s).run ⟨b, pos⟩ = .ok true ⟨b', pos + 4⟩ ∧
      (spfsSbReadSector bSize b').run pos = .ok (some s) (pos + 4)

theorem survivesOnDisk_iff (s : ℕ) : SurvivesOnDisk s ↔ s < 2 ^ 32 := by
  have hback (pos : ℕ) (b : Block) : beDecode ((b.write pos (beEncode 4 s)).read pos 4) = s % 2 ^ 32 := by
    rw [Block.read_write_same (length_beEncode 4 s), beDecode_beEncode]
    rfl
  constructor
  · intro h
    obtain ⟨b', hwrite, hread⟩ := h 8 0 (fun _ => 0) le_rfl
    rw [run_spfsSbWriteU32 (by decide)] at hwrite
    cases hwrite
    rw [run_spfsSbReadSector le_rfl, hback] at hread
    injection hread with hsame
    have hcut := Option.some.inj hsame
    omega
  · intro hs bSize pos b hroom
    refine ⟨_, run_spfsSbWriteU32 (by omega), ?_⟩
    rw [run_spfsSbReadSector hroom, hback, Nat.mod_eq_of_lt hs]

/-- The list that the image of `mkfs` is loaded as. -/
def oneEntry (c : ℕ) : FreeList := ⟨c, [⟨2, c⟩]⟩

/-- The first request for less than `c` blocks is for one block. -/
def FirstTakesOne (c : ℕ) (reqs : List ℕ) : Prop :=
  ∃ pre post, reqs = pre ++ 1 :: post ∧ ∀ n ∈ pre, c ≤ n

section Grants

variable {c n : ℕ} {reqs : List ℕ}

theorem spfsFreeAlloc_oneEntry (c n : ℕ) :
    spfsFreeAlloc (oneEntry c) n = if n < c then (2 + (c - n), oneEntry (c - n)) else (0, oneEntry c) := by
  unfold spfsFreeAlloc oneEntry
  by_cases hn : n < c
  · rw [if_pos hn, if_pos hn]
    dsimp only
    rw [allocLit, if_pos hn.le]
  · rw [if_neg hn, if_neg hn]

theorem firstTakesOne_concat : FirstTakesOne c (reqs ++ [n]) ↔
    FirstTakesOne c reqs ∨ n = 1 ∧ ∀ m ∈ reqs, c ≤ m := by
  constructor
  · rintro ⟨pre, post, heq, hpre⟩
    rcases List.eq_nil_or_concat post with rfl | ⟨post, last, rfl⟩
    · obtain ⟨rfl, hlast⟩ := List.append_inj' heq rfl
      exact .inr ⟨(List.cons.inj hlast).1, hpre⟩
    · rw [List.concat_eq_append, ← List.cons_append, ← List.append_assoc] at heq
      obtain ⟨rfl, -⟩ := List.append_inj' heq rfl
      exact .inl ⟨pre, post, rfl, hpre⟩
  · rintro (⟨pre, post, rfl, hpre⟩ | ⟨rfl, hall⟩)
    · exact ⟨pre, post ++ [n], by simp, hpre⟩
    · exact ⟨reqs, [], rfl, hall⟩

/-- What a run of requests has come to: the entry is shorter unless all were refused, and
what was granted lies inside of it, below `2 ^ 32` unless the first takes one block of
`2 ^ 32 - 1`. -/
structure OneEntryRun (c : ℕ) (reqs : List ℕ) (c' : ℕ) : Prop where
  list : (allocRun (oneEntry c) reqs).2 = oneEntry c'
  le : c' ≤ c
  eq : c' = c ↔ ∀ n ∈ reqs, c ≤ n
  inside : ∀ g ∈ successful (allocRun (oneEntry c) reqs).1, g.1 + g.2 ≤ 2 + c
  small : (∀ g ∈ successful (allocRun (oneEntry c) reqs).1, g.1 < 2 ^ 32) ↔
    ¬ (c = 2 ^ 32 - 1 ∧ FirstTakesOne c reqs)

theorem successful_cons (g : ℕ × ℕ) (granted : List (ℕ × ℕ)) :
    successful (g :: granted) = if g.1 ≠ 0 then g :: successful granted else successful granted := by
  rw [successful, List.filter_cons]
  by_cases h : g.1 = 0 <;> simp [h, successful]

theorem OneEntryRun.concat {c' : ℕ} (h : OneEntryRun c reqs c') (hc : c < 2 ^ 32) (hn : 1 ≤ n) :
    ∃ c'', OneEntryRun c (reqs ++ [n]) c'' := by
  have hrun : allocRun (oneEntry c) (reqs ++ [n]) = allocStep (allocRun (oneEntry c) reqs) n :=
    allocRun_concat _ _ _
  have hle := h.le
  by_cases hless : n < c'
  · have hstep : allocRun (oneEntry c) (reqs ++ [n]) =
        ((2 + (c' - n), n) :: (allocRun (oneEntry c) reqs).1, oneEntry (c' - n)) := by
      rw [hrun, allocStep, h.list, spfsFreeAlloc_oneEntry, if_pos hless]
    have hgranted : successful (allocRun (oneEntry c) (reqs ++ [n])).1 =
        (2 + (c' - n), n) :: successful (allocRun (oneEntry c) reqs).1 := by
      rw [hstep, successful_cons, if_pos (by dsimp only; omega)]
    refine ⟨c' - n, by rw [hstep], by omega, ?_, ?_, ?_⟩
    · refine iff_of_false (by omega) fun hall => ?_
      have := hall n (List.mem_append_right _ List.mem_cons_self)
      omega
    · rw [hgranted]
      intro g hg
      rcases List.mem_cons.mp hg with rfl | hg
      · show 2 + (c' - n) + n ≤ 2 + c
        omega
      · exact h.inside g hg
    · rw [hgranted, List.forall_mem_cons, h.small, firstTakesOne_concat, ← h.eq]
      dsimp only
      constructor
      · rintro ⟨hsmall, hfirst⟩ ⟨htop, hone | ⟨rfl, rfl⟩⟩
        · exact hfirst ⟨htop, hone⟩
        · omega
      · intro hnot
        refine ⟨?_, fun hfirst => hnot ⟨hfirst.1, .inl hfirst.2⟩⟩
        by_contra hbig
        exact hnot ⟨by omega, .inr ⟨by omega, by omega⟩⟩
  · have hstep : allocRun (oneEntry c) (reqs ++ [n]) =
        ((0, n) :: (allocRun (oneEntry c) reqs).1, oneEntry c') := by
      rw [hrun, allocStep, h.list, spfsFreeAlloc_oneEntry, if_neg hless]
    have hgranted : successful (allocRun (oneEntry c) (reqs ++ [n])).1 =
        successful (allocRun (oneEntry c) reqs).1 := by
      rw [hstep, successful_cons, if_neg (not_not.mpr rfl)]
    refine ⟨c', by rw [hstep], h.le, ?_, by rw [hgranted]; exact h.inside, ?_⟩
    · rw [h.eq, List.forall_mem_append, List.forall_mem_singleton]
      refine ⟨fun hall => ⟨hall, ?_⟩, And.left⟩
      rw [h.eq.mpr hall] at hless
      exact Nat.not_lt.mp hless
    · rw [hgranted, h.small, firstTakesOne_concat, ← h.eq]
      refine not_congr (and_congr_right fun htop => ⟨.inl, fun hor => hor.resolve_right ?_⟩)
      rintro ⟨rfl, rfl⟩
      omega

/-- The run lemma: what any requests come to. -/
theorem oneEntryRun (hc : c < 2 ^ 32) (hreqs : ∀ n ∈ reqs, 1 ≤ n) : ∃ c', OneEntryRun c reqs c' := by
  induction reqs using List.reverseRecOn with
  | nil =>
    refine ⟨c, rfl, le_rfl, by simp, by simp [successful], ?_⟩
    refine iff_of_true (by simp [successful]) ?_
    rintro ⟨-, pre, post, heq, -⟩
    simp at heq
  | append_singleton reqs n ih =>
    obtain ⟨c', h⟩ := ih fun m hm => hreqs m (List.mem_append_left _ hm)
    exact h.concat hc (hreqs n (List.mem_append_right _ List.mem_cons_self))

end Grants

section Device

variable {env : Env} {fd fd' : OpenFile} {w w' : World} {reqs : List ℕ}

/-- What the image of `mkfs` is loaded as. -/
theorem spfsFreeInit_mkfs (hpos : fd.pos = 0) (hblk : 512 ≤ fd.blksize) (hblk' : fd.blksize < 2 ^ 32)
    (hrun : mkfsMain.run fd = .ok 0 fd') (henv : env.Grants) (hsize : w.bSize = fd.blksize)
    (hdev : w.Shows fd'.data) (hload : (spfsFreeInit env 1).run w = .ok 0 w') :
    w'.sbi.freeList = oneEntry (fd.dataBlocks % 2 ^ 32) := by
  obtain ⟨-, -, hdata⟩ := run_mkfsMain hpos hblk hblk' hrun
  rw [fd.dataBlocks_eq] at hdata
  have himage : fd'.data = freshImage fd.blksize fd.dataBlocks fd.data := hdata
  obtain ⟨hgood, hnext, htable⟩ := @good_freshImage fd.blksize fd.dataBlocks fd.data
    (kernelView w.bSize fd'.data) himage (show 1 * w.bSize = fd.blksize by omega)
    (show fd.blksize + 20 ≤ 1 * w.bSize + w.bSize by omega)
  have hwell := FreeListView.WellFormed.last hgood hnext
  obtain ⟨-, es, ⟨h1, -⟩ | ⟨-, hes⟩, hfl⟩ | ⟨hres, -⟩ := spfsFreeInit_loads henv hdev hload
  · cases h1
  · rw [hfl, hes.unique hwell, htable]
    simp [FreeList.push, oneEntry]
  · exact absurd rfl hres

/-- The sectors that are handed out lie on the device and survive there. -/
def GrantsSurvive (fd : OpenFile) (fl : FreeList) (reqs : List ℕ) : Prop :=
  ∀ g ∈ successful (allocRun fl reqs).1, (g.1 + g.2) * fd.blksize ≤ fd.size ∧ SurvivesOnDisk g.1

/-- All sectors handed out survive, unless the 32 bits of the count are all set and the
first request that is met takes one block. -/
theorem spfsFreeAlloc_survive_iff (hpos : fd.pos = 0) (hblk : 512 ≤ fd.blksize)
    (hblk' : fd.blksize < 2 ^ 32) (hrun : mkfsMain.run fd = .ok 0 fd') (henv : env.Grants)
    (hsize : w.bSize = fd.blksize) (hdev : w.Shows fd'.data)
    (hload : (spfsFreeInit env 1).run w = .ok 0 w') (hreqs : ∀ n ∈ reqs, 1 ≤ n) :
    GrantsSurvive fd w'.sbi.freeList reqs ↔
      ¬ (fd.dataBlocks % 2 ^ 32 = 2 ^ 32 - 1 ∧ FirstTakesOne (2 ^ 32 - 1) reqs) := by
  rw [spfsFreeInit_mkfs hpos hblk hblk' hrun henv hsize hdev hload]
  obtain ⟨hthree, -, -⟩ := run_mkfsMain hpos hblk hblk' hrun
  set c := fd.dataBlocks % 2 ^ 32
  obtain ⟨c', hcome⟩ := oneEntryRun (c := c) (Nat.mod_lt _ (Nat.two_pow_pos 32)) hreqs
  have hinside : (2 + c) * fd.blksize ≤ fd.size := by
    have hmod : c ≤ fd.dataBlocks := Nat.mod_le _ _
    have htwo : 2 ≤ fd.size / fd.blksize :=
      (Nat.le_div_iff_mul_le (Nat.lt_of_lt_of_le (by decide) hblk)).mpr (by omega)
    have hall : 2 + c ≤ fd.size / fd.blksize := by
      unfold OpenFile.dataBlocks at hmod
      omega
    exact le_trans (Nat.mul_le_mul_right _ hall) (Nat.div_mul_le_self _ _)
  have hfits : ∀ g ∈ successful (allocRun (oneEntry c) reqs).1, (g.1 + g.2) * fd.blksize ≤ fd.size :=
    fun g hg => le_trans (Nat.mul_le_mul_right _ (hcome.inside g hg)) hinside
  have htop : (c = 2 ^ 32 - 1 ∧ FirstTakesOne (2 ^ 32 - 1) reqs) ↔
      (c = 2 ^ 32 - 1 ∧ FirstTakesOne c reqs) := by
    refine and_congr_right fun h => ?_
    rw [h]
  rw [htop, ← hcome.small]
  constructor
  · intro h g hg
    exact (survivesOnDisk_iff g.1).mp (h g hg).2
  · intro h g hg
    exact ⟨hfits g hg, (survivesOnDisk_iff g.1).mpr (h g hg)⟩

/-- The free list of an image can be loaded. -/
theorem mkfs_loads (hpos : fd.pos = 0) (hblk : fd.blksize = 512) (hlarge : 3 * 512 ≤ fd.size) :
    ∃ fd' w', mkfsMain.run fd = .ok 0 fd' ∧
      (spfsFreeInit (.calm 9) 1).run (deviceWorld fd'.data) = .ok 0 w' := by
  have hmin : 512 ≤ fd.blksize := hblk.ge
  have hmax : fd.blksize < 2 ^ 32 := by
    rw [hblk]
    decide
  obtain ⟨fd', hrun⟩ := mkfsMain_exits_zero fd hpos hmin hmax (by rw [hblk]; exact hlarge)
  obtain ⟨-, -, hdata⟩ := run_mkfsMain hpos hmin hmax hrun
  rw [fd.dataBlocks_eq] at hdata
  have himage : fd'.data = freshImage fd.blksize fd.dataBlocks fd.data := hdata
  have haccepts := @kernelAccepts_freshImage fd.blksize fd.dataBlocks fd.data hmin hmax
  rw [← himage] at haccepts
  obtain ⟨w', hload, -⟩ := haccepts.freeList (.calm 9) (deviceWorld fd'.data) (Env.calm_grants 9)
    (by decide) hblk.symm (deviceWorld_shows _)
  exact ⟨fd', w', hrun, hload⟩

end Device

theorem spfsFreeAlloc_survive_iff_threeBlocks :
    ∃ fd' w', mkfsMain.run threeBlocks = .ok 0 fd' ∧
      (spfsFreeInit (.calm 9) 1).run (deviceWorld fd'.data) = .ok 0 w' ∧
      (GrantsSurvive threeBlocks w'.sbi.freeList [1] ↔
        ¬ (threeBlocks.dataBlocks % 2 ^ 32 = 2 ^ 32 - 1 ∧ FirstTakesOne (2 ^ 32 - 1) [1])) := by
  obtain ⟨fd', w', hrun, hload⟩ := @mkfs_loads threeBlocks rfl rfl (by decide)
  exact ⟨fd', w', hrun, hload, spfsFreeAlloc_survive_iff rfl (by decide) (by decide) hrun
    (Env.calm_grants 9) rfl (deviceWorld_shows _) hload (by simp)⟩

/-- A device of 2 TiB with `2 ^ 32 - 1` data blocks of 512 bytes. -/
def fullCountDevice : OpenFile := { threeBlocks with size := (2 ^ 32 + 1) * 512 }

/-- Its first block is handed out as a sector of 33 bits. -/
theorem not_grantsSurvive_fullCount :
    ∃ fd' w', mkfsMain.run fullCountDevice = .ok 0 fd' ∧
      (spfsFreeInit (.calm 9) 1).run (deviceWorld fd'.data) = .ok 0 w' ∧
      (spfsFreeAlloc w'.sbi.freeList 1).1 = 2 ^ 32 ∧
      ¬ GrantsSurvive fullCountDevice w'.sbi.freeList [1] := by
  obtain ⟨fd', w', hrun, hload⟩ := @mkfs_loads fullCountDevice rfl rfl (by decide)
  have hlist : w'.sbi.freeList = oneEntry (2 ^ 32 - 1) :=
    spfsFreeInit_mkfs rfl (by decide) (by decide) hrun (Env.calm_grants 9) rfl (deviceWorld_shows _) hload
  have hsector : (spfsFreeAlloc w'.sbi.freeList 1).1 = 2 ^ 32 := by
    rw [hlist, spfsFreeAlloc_oneEntry, if_pos (by decide)]
    decide
  refine ⟨fd', w', hrun, hload, hsector, fun hall => ?_⟩
  have hgranted : successful (allocRun w'.sbi.freeList [1]).1 = [(2 ^ 32, 1)] := by
    show successful [((spfsFreeAlloc w'.sbi.freeList 1).1, 1)] = _
    rw [hsector]
    rfl
  rw [GrantsSurvive, hgranted] at hall
  have hsurvives := (hall _ List.mem_cons_self).2
  exact absurd ((survivesOnDisk_iff _).mp hsurvives) (lt_irrefl _)

end Spfs
