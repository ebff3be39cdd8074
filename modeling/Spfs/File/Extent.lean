-- SUMMARY: Extent headers, and what spfs_write_file_extent does to the blocks of an extent and to its header.
import Spfs.File

/-!
# Writing to an extent

The blocks of an extent are one area with a header of 16 bytes in front. Every block
takes what fits in it behind the position and hands on the rest, so the bytes land in
the area as if they had been written at once (`StoresBytes`). The two counts that go
with it are wrong: the result counts the bytes of the first block only, and the length
in the header grows by what was written even where it overwrites.
-/

namespace Spfs

/-! ## Extent headers -/

def extentMagic (b : Block) : ℕ := beDecode (b.read 0 4)

/-- The header that a block starts with. -/
def parsedExtent (b : Block) : FileExtent :=
  ⟨beDecode (b.read 4 4), beDecode (b.read 8 4), beDecode (b.read 12 4)⟩

/-- The fields of a header in the order of their places. -/
def extentFields (e : FileExtent) : List (List UInt8) :=
  [beEncode 4 spookyFsFileBlockMagic, beEncode 4 e.next, beEncode 4 e.capacity,
    beEncode 4 e.length]

/-- The block `b` after the header `e` was written to it. -/
def withExtent (e : FileExtent) (b : Block) : Block := b.write 0 (extentFields e).flatten

/-- The header as the words that are stored. -/
def FileExtent.words (e : FileExtent) : List ℕ := [spookyFsFileBlockMagic, e.next, e.capacity, e.length]

/-- The fields of a header have the width of their places. -/
structure FileExtent.Fits (e : FileExtent) : Prop where
  next : e.next < 2 ^ 32
  capacity : e.capacity < 2 ^ 32
  length : e.length < 2 ^ 32

/-- The block starts with the header `e`. -/
structure ExtentAt (b : Block) (e : FileExtent) : Prop where
  magic : extentMagic b = spookyFsFileBlockMagic
  eq : parsedExtent b = e

section Headers

variable {bSize : ℕ} {b : Block} {e : FileExtent}

theorem extentAt_iff : ExtentAt b e ↔ extentMagic b = spookyFsFileBlockMagic ∧ parsedExtent b = e :=
  ⟨fun h => ⟨h.magic, h.eq⟩, fun h => ⟨h.1, h.2⟩⟩

theorem run_spfsParseFileExtent_of_le (h : 16 ≤ bSize) :
    (spfsParseFileExtent bSize b).run 0 =
      .ok (if extentMagic b = spookyFsFileBlockMagic then .ok (parsedExtent b)
        else .error (-EINVAL)) 16 := by
  simp (disch := omega) only [spfsParseFileExtent, EStateM.run_bind_match, run_spfsSbReadU32,
    run_spfsSbReadSector, Nat.zero_add, Nat.reduceAdd, EStateM.run_ite]
  by_cases hmagic : extentMagic b = spookyFsFileBlockMagic
  · have heq : ¬ beDecode (b.read 0 4) ≠ spookyFsFileBlockMagic := not_not.mpr hmagic
    rw [if_neg heq, if_pos hmagic]
    rfl
  · have hne : beDecode (b.read 0 4) ≠ spookyFsFileBlockMagic := hmagic
    rw [if_pos hne, if_neg hmagic]
    rfl

theorem run_spfsParseFileExtent (h : 512 ≤ bSize) :
    (spfsParseFileExtent bSize b).run 0 =
      .ok (if extentMagic b = spookyFsFileBlockMagic then .ok (parsedExtent b)
        else .error (-EINVAL)) 16 :=
  run_spfsParseFileExtent_of_le (le_trans (by decide) h)

/-- A buffer that is too short for a header is refused. -/
theorem run_spfsParseFileExtent_short (h : bSize < 16) :
    ∃ pos, (spfsParseFileExtent bSize b).run 0 = .ok (.error (-EINVAL)) pos := by
  rw [spfsParseFileExtent]
  by_cases hmagic : 4 ≤ bSize
  case neg =>
    have hout : bSize < 0 + 4 := Nat.lt_of_not_le hmagic
    rw [EStateM.run_bind_of_ok (run_spfsSbReadU32_short hout (Nat.zero_le _))]
    exact ⟨_, rfl⟩
  have hin : 0 + 4 ≤ bSize := hmagic
  rw [EStateM.run_bind_of_ok (run_spfsSbReadU32 hin)]
  dsimp only
  by_cases hnext : 12 ≤ bSize
  · have hin' : 0 + 4 + 8 ≤ bSize := hnext
    rw [EStateM.run_bind_of_ok (run_spfsSbReadSector hin')]
    dsimp only
    rw [EStateM.run_bind_of_ok (run_spfsSbReadU32 hin')]
    dsimp only
    rw [EStateM.run_bind_of_ok (run_spfsSbReadU32_short h hin')]
    exact ⟨_, rfl⟩
  · have hout : bSize < 0 + 4 + 8 := Nat.lt_of_not_le hnext
    rw [EStateM.run_bind_of_ok (run_spfsSbReadSector_short hout hin)]
    exact ⟨_, rfl⟩

theorem ExtentAt.run_parse (he : ExtentAt b e) (h : 512 ≤ bSize) :
    (spfsParseFileExtent bSize b).run 0 = .ok (.ok e) 16 := by
  rw [run_spfsParseFileExtent h, if_pos he.magic, he.eq]

/-- The parser accepts the buffers that hold a header. -/
theorem spfsParseFileExtent_eq_ok {pos : ℕ} :
    (spfsParseFileExtent bSize b).run 0 = .ok (.ok e) pos ↔ 16 ≤ bSize ∧ pos = 16 ∧ ExtentAt b e := by
  rw [parse_eq_ok_iff run_spfsParseFileExtent_of_le run_spfsParseFileExtent_short, extentAt_iff]

theorem run_spfsMakeFileExtent_of_le (e : FileExtent) (h : 16 ≤ bSize) :
    (spfsMakeFileExtent e bSize).run ⟨b, 0⟩ = .ok 0 ⟨withExtent e b, 16⟩ := by
  refine (EStateM.run_check_of_true (run_spfsSbWriteU32 (by omega))).trans ?_
  refine (EStateM.run_check_of_true (run_spfsSbWriteU32 (by omega))).trans ?_
  refine (EStateM.run_check_of_true (run_spfsSbWriteU32 (by omega))).trans ?_
  refine (EStateM.run_check_of_true (run_spfsSbWriteU32 (by omega))).trans ?_
  simp only [withExtent, extentFields, List.flatten_cons, List.flatten_nil, List.append_nil,
    Block.write_append, length_beEncode, Nat.zero_add, Nat.reduceAdd, EStateM.run_pure]

theorem run_spfsMakeFileExtent (e : FileExtent) (h : 512 ≤ bSize) :
    (spfsMakeFileExtent e bSize).run ⟨b, 0⟩ = .ok 0 ⟨withExtent e b, 16⟩ :=
  run_spfsMakeFileExtent_of_le e (le_trans (by decide) h)

theorem withExtent_eq_writeWords : withExtent e b = b.writeWords 0 e.words := rfl

theorem extentAt_iff_words : ExtentAt b e ↔ b.words 0 4 = e.words := by
  have hwords : b.words 0 4 =
      [extentMagic b, (parsedExtent b).next, (parsedExtent b).capacity, (parsedExtent b).length] := rfl
  rw [hwords]
  constructor
  · rintro ⟨hmagic, rfl⟩
    rw [hmagic]
    rfl
  · intro h
    obtain ⟨next, capacity, length⟩ := e
    simp only [FileExtent.words, List.cons.injEq, and_true] at h
    obtain ⟨hmagic, rfl, rfl, rfl⟩ := h
    exact ⟨hmagic, rfl⟩

theorem FileExtent.Fits.words_lt (h : e.Fits) : ∀ w ∈ e.words, w < 2 ^ 32 := by
  simp only [FileExtent.words, List.forall_mem_cons]
  exact ⟨by decide, h.next, h.capacity, h.length, fun _ hw => absurd hw List.not_mem_nil⟩

/-- A header whose numbers have 32 bits reads back as it was made. -/
theorem extentAt_withExtent (b : Block) (hnext : e.next < 2 ^ 32)
    (hcapacity : e.capacity < 2 ^ 32) (hlength : e.length < 2 ^ 32) :
    ExtentAt (withExtent e b) e := by
  have hfits : e.Fits := ⟨hnext, hcapacity, hlength⟩
  rw [extentAt_iff_words, withExtent_eq_writeWords]
  exact b.words_writeWords_of_lt 0 hfits.words_lt

/-- A header that was made reads back with its sector cut to 32 bits. -/
theorem extentAt_withExtent_cut (b : Block) (hcapacity : e.capacity < 2 ^ 32)
    (hlength : e.length < 2 ^ 32) :
    ExtentAt (withExtent e b) { e with next := e.next % 2 ^ 32 } := by
  rw [extentAt_iff_words, withExtent_eq_writeWords]
  refine (b.words_writeWords 0 e.words).trans ?_
  simp only [FileExtent.words, List.map_cons, List.map_nil, Nat.mod_eq_of_lt hcapacity,
    Nat.mod_eq_of_lt hlength]
  rfl

/-- A header survives writes behind it. -/
theorem ExtentAt.write (h : ExtentAt b e) {pos : ℕ} (hpos : 16 ≤ pos) (l : List UInt8) :
    ExtentAt (b.write pos l) e := by
  rw [extentAt_iff_words, b.words_write_of_le hpos, ← extentAt_iff_words]
  exact h

end Headers

/-! ## Storing in blocks -/

/-- The bytes of the `n` blocks from `s` on change from `pos` on to those of the list,
and no other block changes. -/
structure StoresBytes (w w' : World) (s n pos : ℕ) (l : List UInt8) : Prop where
  bytes : Block.joined w.bSize w'.disk s = (Block.joined w.bSize w.disk s).write pos l
  frame : ∀ b, b < s ∨ s + n ≤ b → w'.disk b = w.disk b
  bSize : w'.bSize = w.bSize
  sbi : w'.sbi = w.sbi
  inodes : w'.inodes = w.inodes

theorem StoresBytes.nil (w : World) (s n pos : ℕ) : StoresBytes w w s n pos [] where
  bytes := by rw [Block.write_nil]
  frame _ _ := rfl
  bSize := rfl
  sbi := rfl
  inodes := rfl

/-- The blocks that change are marked dirty on the way. -/
def MarksDirty (w w' : World) : Prop :=
  ∃ es, w'.log = es ++ w.log ∧ ∀ b, w'.disk b ≠ w.disk b → Event.dirty b ∈ es

instance : IsPreorder World MarksDirty where
  refl w := ⟨[], rfl, fun _ h => absurd rfl h⟩
  trans := by
    rintro w w₁ w' ⟨es, hlog, hes⟩ ⟨es', hlog', hes'⟩
    refine ⟨es' ++ es, by rw [hlog', hlog, List.append_assoc], fun b hb => ?_⟩
    rw [List.mem_append]
    by_cases hsecond : w'.disk b = w₁.disk b
    · rw [hsecond] at hb
      exact .inr (hes b hb)
    · exact .inl (hes' b hsecond)

instance : IgnoresLog MarksDirty where
  addEvent _ e := ⟨[e], rfl, fun _ h => absurd rfl h⟩

section Write

variable {env : Env} {w w₁ w' : World} {s : ℕ} {e : FileExtent} {buf : List UInt8}

/-- A write to a block skips up to the position, or to the end of the block, and fills
what is left of the block. -/
theorem run_spfsDoWrite {bhPos : ℕ} (h : bhPos ≤ w.bSize) (buf : List UInt8) (pos : ℕ) :
    let k := min buf.length (w.bSize - (bhPos + pos))
    (spfsDoWrite s bhPos ⟨buf, pos⟩).run w =
      .ok (k, ⟨buf.drop k, pos - (w.bSize - bhPos)⟩)
        (w.setBlock s ((w.disk s).write (bhPos + pos) (buf.take k))) := by
  intro k
  unfold spfsDoWrite
  rw [EStateM.run_bind_of_ok (EStateM.run_get w), EStateM.run_bind_of_ok (run_spfsSbRemaining h w)]
  dsimp only
  have hskip : pos - min pos (w.bSize - bhPos) = pos - (w.bSize - bhPos) := by omega
  rw [hskip]
  by_cases hpos : pos - (w.bSize - bhPos) = 0
  · have hall : min pos (w.bSize - bhPos) = pos := by omega
    have hk : min buf.length (w.bSize - (bhPos + pos)) = k := rfl
    rw [if_pos hpos, hall, EStateM.run_bind_of_ok (run_spfsSbRemaining (by omega) w), hk]
    rfl
  · have hk : k = 0 := by omega
    rw [if_neg hpos, hk, List.take_zero, Block.write_nil, World.setBlock_self, List.drop_zero]
    rfl

theorem FileExtent.grow_zero {e : FileExtent} (h : e.length < 2 ^ 32) : e.grow 0 = e := by
  rw [grow, Nat.add_zero, Nat.mod_eq_of_lt h]

theorem FileExtent.grow_grow (e : FileExtent) (m n : ℕ) : (e.grow m).grow n = e.grow (m + n) := by
  simp only [grow, Nat.mod_add_mod, Nat.add_assoc]

theorem FileExtent.grow_length_lt (e : FileExtent) (n : ℕ) : (e.grow n).length < 2 ^ 32 :=
  Nat.mod_lt _ (Nat.two_pow_pos 32)

/-- One round of the loop: the block takes its share, and the others get the rest. -/
theorem run_spfsWriteFileExtentBlocks_step (it n pos : ℕ) {header : FileExtent} (dirty : Bool)
    (hio : ∀ t, env.ioOk t it = true) (hsize : w.sbi.blockSize = w.bSize)
    (hlength : header.length < 2 ^ 32) (hbuf : buf ≠ []) :
    let k := min buf.length (w.bSize - pos)
    ∃ w₁, (spfsWriteFileExtentBlocks env (n + 1) it ⟨header, dirty, ⟨buf, pos⟩⟩).run w =
        (spfsWriteFileExtentBlocks env n (it + 1)
          ⟨header.grow k, dirty || decide (0 < k), ⟨buf.drop k, pos - w.bSize⟩⟩).run w₁ ∧
      OnlyLogs (w.setBlock it ((w.disk it).write pos (buf.take k))) w₁ ∧ MarksDirty w w₁ := by
  intro k
  have hlen : 1 ≤ buf.length := List.length_pos_iff.mpr hbuf
  rw [spfsWriteFileExtentBlocks, if_neg hbuf, EStateM.run_bind_of_ok (EStateM.run_get w)]
  by_cases hin : pos < w.bSize
  · have hsector : spfsInSector w.sbi pos = true := by
      rw [spfsInSector, hsize]
      exact decide_eq_true hin
    have hsome : 0 < k := by omega
    have hread : (sbBread env it).run w = .ok true (w.addEvent (.bread it true)) :=
      run_sbBread_ok (hio _)
    have hwrite := run_spfsDoWrite (w := w.addEvent (.bread it true)) (s := it) (Nat.zero_le _) buf pos
    simp only [Nat.zero_add, World.addEvent_bSize, World.addEvent_disk, Nat.sub_zero] at hwrite
    refine ⟨(((w.addEvent (.bread it true)).setBlock it ((w.disk it).write pos (buf.take k))).addEvent
      (.dirty it)).addEvent (.brelse it), ?_, ⟨[.brelse it, .dirty it, .bread it true], rfl⟩, ?_⟩
    · rw [if_pos hsector, EStateM.run_check_of_true hread, EStateM.run_bind_of_ok hwrite]
      dsimp only
      rw [if_pos hsome, EStateM.run_bind_of_ok (run_markBufferDirty _ _),
        EStateM.run_bind_of_ok (run_brelse _ _)]
    · refine ⟨[.brelse it, .dirty it, .bread it true], rfl, fun b hb => ?_⟩
      have hbit : b = it := by
        by_contra hne
        exact hb (Function.update_of_ne hne _ _)
      simp [hbit]
  · have hsector : ¬ spfsInSector w.sbi pos = true := by
      rw [spfsInSector, hsize, decide_eq_true_iff]
      exact hin
    have hnone : k = 0 := by omega
    have hok : (bugOn (pos < w.sbi.blockSize) : Kernel Unit).run w = .ok () w := by
      rw [run_bugOn, if_neg (by rwa [hsize])]
    refine ⟨w, ?_, ?_, refl_of MarksDirty w⟩
    · rw [if_neg hsector, EStateM.run_bind_of_ok (EStateM.run_get w), EStateM.run_bind_of_ok hok,
        hnone, FileExtent.grow_zero hlength, hsize]
      simp
    · rw [hnone, List.take_zero, Block.write_nil, World.setBlock_self]
      exact refl_of OnlyLogs w

/-- A block that takes its share, and then those behind it. -/
theorem StoresBytes.cons {n pos k : ℕ} {l : List UInt8}
    (hfirst : OnlyLogs (w.setBlock s ((w.disk s).write pos
      (l.take (min l.length (w.bSize - pos))))) w₁)
    (h : StoresBytes w₁ w' (s + 1) n (pos - w.bSize)
      ((l.drop (min l.length (w.bSize - pos))).take (k - min l.length (w.bSize - pos))))
    (hk : min l.length (w.bSize - pos) ≤ k) (hl : k ≤ l.length) :
    StoresBytes w w' s (n + 1) pos (l.take k) := by
  have hbsize : w₁.bSize = w.bSize := hfirst.bSize
  have hother {b : ℕ} (hb : b ≠ s) : w₁.disk b = w.disk b := by
    rw [hfirst.disk, World.setBlock_disk, Function.update_of_ne hb]
  constructor
  · apply Block.joined_write (Nat.lt_of_lt_of_le (by decide) w.le_bSize) _ _ hk hl
    · rw [h.frame s (by omega), hfirst.disk, World.setBlock_disk, Function.update_self]
    · have hrest := h.bytes
      rw [hbsize] at hrest
      rw [hrest, Block.joined_congr fun t ht => hother (by omega : t ≠ s)]
  · intro b hb
    rw [h.frame b (by omega), hother (by omega)]
  · exact h.bSize.trans hbsize
  · exact h.sbi.trans hfirst.sbi
  · exact h.inodes.trans hfirst.inodes

/-- The shares of the first block and of those behind it make up the share of all. -/
theorem share_add (len pos bs m : ℕ) :
    min len (bs + m - pos) = min len (bs - pos) +
      min (len - min len (bs - pos)) (m - (pos - bs)) := by
  by_cases hpos : pos ≤ bs
  · rw [Nat.sub_eq_zero_of_le hpos, Nat.sub_zero, Nat.sub_add_comm hpos]
    omega
  · have hbs : bs - pos = 0 := by omega
    rw [hbs, Nat.min_zero, Nat.zero_add, Nat.sub_zero]
    congr 1
    omega

theorem share_rest (len pos bs m : ℕ) :
    min (len - min len (bs - pos)) (m - (pos - bs)) = min len (bs + m - pos) - min len (bs - pos) := by
  rw [share_add len pos bs m, Nat.add_sub_cancel_left]

theorem share_le (len pos bs m : ℕ) : min len (bs - pos) ≤ min len (bs + m - pos) := by
  rw [share_add len pos bs m]
  exact Nat.le_add_right _ _

/-- Where the first block takes all, the position is not behind it. -/
theorem pos_of_drop_share {pos bs : ℕ} (hbuf : buf ≠ [])
    (h : buf.drop (min buf.length (bs - pos)) = []) : pos - bs = 0 := by
  have hlen : 1 ≤ buf.length := List.length_pos_iff.mpr hbuf
  have hall : buf.length ≤ min buf.length (bs - pos) := List.drop_eq_nil_iff.mp h
  omega

/-- The header is dirty when the first block or those behind it took something. -/
theorem dirty_share (dirty : Bool) {k₁ k : ℕ} (hle : k₁ ≤ k) :
    (dirty || decide (0 < k₁) || decide (0 < k - k₁)) = (dirty || decide (0 < k)) := by
  have hany : 0 < k₁ ∨ 0 < k - k₁ ↔ 0 < k := by omega
  rw [Bool.or_assoc, ← Bool.decide_or, decide_eq_decide.mpr hany]

/-- The loop over `n` blocks stores what fits in them behind the position. -/
theorem run_spfsWriteFileExtentBlocks (it n : ℕ) {pos : ℕ} {header : FileExtent} (dirty : Bool)
    (hio : ∀ t b, it ≤ b → b < it + n → env.ioOk t b = true)
    (hsize : w.sbi.blockSize = w.bSize) (hlength : header.length < 2 ^ 32)
    (hdone : buf = [] → pos = 0) :
    let k := min buf.length (n * w.bSize - pos)
    ∃ w', (spfsWriteFileExtentBlocks env n it ⟨header, dirty, ⟨buf, pos⟩⟩).run w =
        .ok (.ok ⟨header.grow k, dirty || decide (0 < k), ⟨buf.drop k, pos - n * w.bSize⟩⟩) w' ∧
      StoresBytes w w' it n pos (buf.take k) ∧ MarksDirty w w' := by
  induction n generalizing it pos header dirty buf w with
  | zero =>
    intro k
    have hk : k = 0 := by omega
    refine ⟨w, ?_, ?_, refl_of MarksDirty w⟩
    · rw [hk, FileExtent.grow_zero hlength, Nat.zero_mul, Nat.sub_zero]
      simp [spfsWriteFileExtentBlocks]
    · rw [hk, List.take_zero]
      exact .nil w it 0 pos
  | succ n ih =>
    intro k
    by_cases hbuf : buf = []
    · obtain rfl := hdone hbuf
      subst hbuf
      have hk : k = 0 := Nat.zero_min _
      refine ⟨w, ?_, ?_, refl_of MarksDirty w⟩
      · rw [hk, FileExtent.grow_zero hlength, Nat.zero_sub, spfsWriteFileExtentBlocks, if_pos rfl]
        simp
      · rw [hk, List.take_zero]
        exact .nil w it (n + 1) 0
    · have hlen : 1 ≤ buf.length := List.length_pos_iff.mpr hbuf
      set k₁ := min buf.length (w.bSize - pos) with hk₁
      obtain ⟨w₁, hstep, hlogs, hmarks⟩ := run_spfsWriteFileExtentBlocks_step it n pos
        dirty (fun t => hio t it le_rfl (by omega)) hsize hlength hbuf
      rw [← hk₁] at hlogs hstep
      have hbsize : w₁.bSize = w.bSize := hlogs.bSize
      have hsize₁ : w₁.sbi.blockSize = w₁.bSize := by
        rw [hlogs.sbi, hbsize]
        exact hsize
      obtain ⟨w', hrun, hstores, hmarks'⟩ := ih (it + 1) (dirty || decide (0 < k₁))
        (fun t b hb hb' => hio t b (by omega) (by omega)) hsize₁ (header.grow_length_lt k₁)
        (pos_of_drop_share hbuf)
      have hk : k = min buf.length (w.bSize + n * w.bSize - pos) := by
        rw [Nat.add_comm w.bSize, ← Nat.succ_mul]
      have hle : k₁ ≤ k := by
        rw [hk]
        exact share_le _ _ _ _
      have hkk : min (buf.drop k₁).length (n * w₁.bSize - (pos - w.bSize)) = k - k₁ := by
        rw [List.length_drop, hbsize, share_rest, hk]
      rw [hkk] at hrun hstores
      refine ⟨w', ?_, .cons hlogs hstores hle (Nat.min_le_left _ _), trans_of MarksDirty hmarks hmarks'⟩
      rw [hstep, hrun, FileExtent.grow_grow, List.drop_drop]
      have hsum : k₁ + (k - k₁) = k := Nat.add_sub_cancel' hle
      have hpos : pos - w.bSize - n * w₁.bSize = pos - (n + 1) * w.bSize := by
        rw [hbsize, Nat.sub_sub, Nat.add_comm, ← Nat.succ_mul]
      rw [hsum, hpos, dirty_share dirty hle]

/-! ## The whole extent -/

/-- The header after a new extent was linked behind an extent that has no next one. -/
def FileExtent.linked (e : FileExtent) (extra : ℕ) : FileExtent :=
  if e.next = 0 ∧ extra ≠ 0 then { e with next := extra } else e

theorem FileExtent.linked_capacity (e : FileExtent) (extra : ℕ) :
    (e.linked extra).capacity = e.capacity := by
  unfold linked
  split <;> rfl

theorem FileExtent.linked_length (e : FileExtent) (extra : ℕ) :
    (e.linked extra).length = e.length := by
  unfold linked
  split <;> rfl

theorem FileExtent.linked_next (e : FileExtent) (extra : ℕ) :
    (e.linked extra).next = if e.next = 0 ∧ extra ≠ 0 then extra else e.next := by
  unfold linked
  split <;> rfl

/-- The fields of a header that was parsed have 32 bits. -/
theorem ExtentAt.bounds {b : Block} {e : FileExtent} (h : ExtentAt b e) :
    e.next < 2 ^ 32 ∧ e.capacity < 2 ^ 32 ∧ e.length < 2 ^ 32 := by
  rw [← h.eq]
  exact ⟨b.decode_read_lt 4 4, b.decode_read_lt 8 4, b.decode_read_lt 12 4⟩

/-- What a write of bytes to an extent at `s` with header `e` does to the device; `header`
is the header that it leaves in memory. -/
structure WritesExtent (w w' : World) (s : ℕ) (e header : FileExtent) (pos : ℕ)
    (l : List UInt8) : Prop where
  header : ExtentAt (w'.disk s) { header with next := header.next % 2 ^ 32 }
  bytes : ∀ i ≥ 16, Block.joined w.bSize w'.disk s i =
    (Block.joined w.bSize w.disk s).write (16 + pos) l i
  frame : ∀ b, b < s ∨ s + e.capacity ≤ b → w'.disk b = w.disk b
  marks : MarksDirty w w'
  bSize : w'.bSize = w.bSize
  sbi : w'.sbi = w.sbi
  inodes : w'.inodes = w.inodes

/-- Writing a header does not touch the area behind it. -/
theorem joined_withExtent {bs i : ℕ} (e : FileExtent) (disk : ℕ → Block) (s : ℕ) (hi : 16 ≤ i) :
    Block.joined bs (Function.update disk s (withExtent e (disk s))) s i =
      Block.joined bs disk s i := by
  unfold Block.joined
  by_cases hs : s + i / bs = s
  · rw [hs, Function.update_self]
    have hmod : i % bs = i := by
      have hdiv : i / bs = 0 := by omega
      have := Nat.mod_add_div i bs
      rw [hdiv] at this
      omega
    rw [hmod]
    exact Block.write_apply_of_ge (by simpa [extentFields] using hi)
  · rw [Function.update_of_ne hs]

/-- A write to an extent up to its header: the blocks are written, and the header is still
to be stored when it changed. -/
theorem run_spfsWriteFileExtent_stores (pos extra : ℕ)
    (hio : ∀ t b, s ≤ b → b < s + e.capacity → env.ioOk t b = true)
    (hsize : w.sbi.blockSize = w.bSize) (he : ExtentAt (w.disk s) e) (hc : 1 ≤ e.capacity)
    (hbuf : buf ≠ []) :
    let k := min buf.length (e.capacity * w.bSize - (16 + pos))
    let k₁ := min buf.length (w.bSize - (16 + pos))
    let header := (e.linked extra).grow k
    ∃ w', (spfsWriteFileExtent env s ⟨buf, pos⟩ extra).run w =
        (do
          if (e.next = 0 ∧ extra ≠ 0) ∨ 0 < k then
            let (res, _) ← makeBuf s 0 (spfsMakeFileExtent header)
            bugOn (res ≠ 0)
            markBufferDirty s
          brelse s
          return ((k₁ : ℤ), header, (⟨buf.drop k, 16 + pos - e.capacity * w.bSize⟩ : WriteRest),
            if e.next = 0 ∧ extra ≠ 0 then 0 else extra)).run w' ∧
      StoresBytes w w' s e.capacity (16 + pos) (buf.take k) ∧
      w'.disk s = (w.disk s).write (16 + pos) (buf.take k₁) ∧
      MarksDirty (w.setBlock s (w'.disk s)) w' := by
  intro k k₁ header
  obtain ⟨n, hn⟩ := Nat.exists_eq_add_of_le' hc
  have hbig := w.le_bSize
  set link := e.next = 0 ∧ extra ≠ 0
  -- the first block
  have hread : (sbBread env s).run w = .ok true (w.addEvent (.bread s true)) :=
    run_sbBread_ok (hio _ s le_rfl (Nat.lt_add_of_pos_right hc))
  set w₁ := w.addEvent (.bread s true)
  have he₁ : ExtentAt (w₁.disk s) e := he
  have hparse : (parseBuf s 0 spfsParseFileExtent).run w₁ = .ok (.ok e, 16) w₁ := by
    rw [run_parseBuf, he₁.run_parse w₁.le_bSize]
  have hhead : 16 ≤ w₁.bSize := le_trans (by decide) hbig
  have hwrite := run_spfsDoWrite (s := s) hhead buf pos
  set w₂ := w.setBlock s ((w.disk s).write (16 + pos) (buf.take k₁))
  set w₃ := w₁.setBlock s ((w₁.disk s).write (16 + pos) (buf.take k₁))
  have hlogs : OnlyLogs w₂ w₃ := ⟨[.bread s true], rfl⟩
  have hshift : pos - (w.bSize - 16) = 16 + pos - w.bSize := by omega
  -- the blocks behind it
  have hdone : buf.drop k₁ = [] → 16 + pos - w.bSize = 0 := pos_of_drop_share hbuf
  have hlinked : (if e.next = 0 ∧ extra ≠ 0 then { e with next := extra } else e) = e.linked extra :=
    rfl
  have hcap : (e.linked extra).capacity - 1 = n := by
    rw [e.linked_capacity extra, hn, Nat.add_sub_cancel]
  have hb₁ : w₁.bSize = w.bSize := rfl
  obtain ⟨w₄, hblocks, hstores, hmarks⟩ := run_spfsWriteFileExtentBlocks (w := w₃) (s + 1) n
    (decide link || decide (0 < k₁)) (fun t b hb hb' => hio t b (by omega) (by omega)) hsize
    ((e.linked extra).grow_length_lt k₁) hdone
  have hmul : e.capacity * w.bSize = w.bSize + n * w.bSize := by
    rw [hn, Nat.add_mul, Nat.one_mul, Nat.add_comm]
  have hk : k = min buf.length (w.bSize + n * w.bSize - (16 + pos)) := by rw [← hmul]
  have hle : k₁ ≤ k := by
    rw [hk]
    exact share_le _ _ _ _
  have hbsize : w₃.bSize = w.bSize := rfl
  have hkk : min (buf.drop k₁).length (n * w₃.bSize - (16 + pos - w.bSize)) = k - k₁ := by
    rw [List.length_drop, hbsize, share_rest, hk]
  rw [hkk] at hblocks hstores
  have hpos : 16 + pos - w.bSize - n * w₃.bSize = 16 + pos - e.capacity * w.bSize := by
    rw [hbsize, hmul, Nat.sub_sub]
  have hdirty : ((decide link || decide (0 < k₁) || decide (0 < k - k₁)) = true) = (link ∨ 0 < k) := by
    rw [dirty_share _ hle, ← Bool.decide_or, decide_eq_true_eq]
  rw [FileExtent.grow_grow, List.drop_drop, hpos, Nat.add_sub_cancel' hle] at hblocks
  have hwritten : w₄.disk s = (w.disk s).write (16 + pos) (buf.take k₁) := by
    rw [hstores.frame s (.inl (Nat.lt_succ_self s))]
    exact Function.update_self _ _ _
  refine ⟨w₄, ?_, ?_, hwritten, ?_⟩
  · rw [spfsWriteFileExtent, EStateM.run_check_of_true hread, EStateM.run_bind_of_ok hparse]
    dsimp only
    rw [EStateM.run_bind_of_ok hwrite]
    dsimp only
    rw [hlinked, hb₁, hshift, hcap, EStateM.run_bind_of_ok hblocks]
    simp only [hdirty]
    rfl
  · rw [hn]
    exact .cons hlogs hstores hle (Nat.min_le_left _ _)
  · rw [hwritten]
    have hfirst : MarksDirty w₂ w₃ := ⟨[.bread s true], rfl, fun b hb => absurd rfl hb⟩
    exact trans_of MarksDirty hfirst hmarks

/-- Writing to an extent stores what fits in its blocks behind the position, and returns
what went to the first one. -/
theorem run_spfsWriteFileExtent (pos extra : ℕ)
    (hio : ∀ t b, s ≤ b → b < s + e.capacity → env.ioOk t b = true)
    (hsize : w.sbi.blockSize = w.bSize) (he : ExtentAt (w.disk s) e) (hc : 1 ≤ e.capacity)
    (hbuf : buf ≠ []) :
    let k := min buf.length (e.capacity * w.bSize - (16 + pos))
    let header := (e.linked extra).grow k
    ∃ w', (spfsWriteFileExtent env s ⟨buf, pos⟩ extra).run w =
        .ok ((min buf.length (w.bSize - (16 + pos)) : ℕ), header,
          ⟨buf.drop k, 16 + pos - e.capacity * w.bSize⟩,
          if e.next = 0 ∧ extra ≠ 0 then 0 else extra) w' ∧
      WritesExtent w w' s e header pos (buf.take k) := by
  intro k header
  obtain ⟨hnext, hcapacity, hlength⟩ := he.bounds
  obtain ⟨w₁, hrun, hstores, hwritten, hmarks⟩ :=
    run_spfsWriteFileExtent_stores pos extra hio hsize he hc hbuf
  have hk : min buf.length (e.capacity * w.bSize - (16 + pos)) = k := rfl
  have hheader : (e.linked extra).grow k = header := rfl
  rw [hk, hheader] at hrun
  by_cases hdirty : (e.next = 0 ∧ extra ≠ 0) ∨ 0 < k
  · have hmake : (makeBuf s 0 (spfsMakeFileExtent header)).run w₁ =
        .ok (0, 16) (w₁.setBlock s (withExtent header (w₁.disk s))) := by
      rw [run_makeBuf, run_spfsMakeFileExtent _ w₁.le_bSize]
    refine ⟨((w₁.setBlock s (withExtent header (w₁.disk s))).addEvent (.dirty s)).addEvent
      (.brelse s), ?_, ?_⟩
    · rw [hrun, if_pos hdirty, EStateM.run_bind_of_ok hmake]
      rfl
    · have hat {b : ℕ} (hb : b ≠ s) :
          Function.update w₁.disk s (withExtent header (w₁.disk s)) b = w₁.disk b :=
        Function.update_of_ne hb _ _
      constructor
      · have hself : Function.update w₁.disk s (withExtent header (w₁.disk s)) s =
          withExtent header (w₁.disk s) := Function.update_self _ _ _
        show ExtentAt (Function.update w₁.disk s (withExtent header (w₁.disk s)) s) _
        rw [hself]
        exact extentAt_withExtent_cut _ ((e.linked_capacity extra).trans_lt hcapacity)
          ((e.linked extra).grow_length_lt k)
      · intro i hi
        rw [← hstores.bytes]
        exact joined_withExtent header w₁.disk s hi
      · intro b hb
        rw [← hstores.frame b hb]
        exact hat (by omega)
      · obtain ⟨es, hlog, hes⟩ := hmarks
        refine ⟨.brelse s :: .dirty s :: es, ?_, fun b hb => ?_⟩
        · show Event.brelse s :: Event.dirty s :: w₁.log = _
          rw [hlog]
          rfl
        · by_cases hbs : b = s
          · simp [hbs]
          · have hchanged : w₁.disk b ≠ (w.setBlock s (w₁.disk s)).disk b := by
              rw [World.setBlock_disk, Function.update_of_ne hbs, ← hat hbs]
              exact hb
            simp [hes b hchanged]
      · exact hstores.bSize
      · exact hstores.sbi
      · exact hstores.inodes
  · obtain ⟨hlink, hnone⟩ := not_or.mp hdirty
    have hk₀ : k = 0 := Nat.eq_zero_of_not_pos hnone
    have hfirst : min buf.length (w.bSize - (16 + pos)) = 0 := by
      refine Nat.eq_zero_of_le_zero (le_trans (le_min (Nat.min_le_left _ _) ?_) hk₀.le)
      exact (Nat.min_le_right _ _).trans (Nat.sub_le_sub_right (Nat.le_mul_of_pos_left _ hc) _)
    have hsame : header = e := by
      have hlinked : e.linked extra = e := if_neg hlink
      show (e.linked extra).grow k = e
      rw [hlinked, hk₀, FileExtent.grow_zero hlength]
    rw [hfirst, List.take_zero, Block.write_nil] at hwritten
    refine ⟨w₁.addEvent (.brelse s), ?_, ?_⟩
    · rw [hrun, if_neg hdirty]
      rfl
    · constructor
      · show ExtentAt (w₁.disk s) _
        rw [hwritten, hsame, Nat.mod_eq_of_lt hnext]
        exact he
      · intro i _
        rw [← hstores.bytes]
        rfl
      · exact hstores.frame
      · rw [hwritten] at hmarks
        have hsetBlock : (w.setBlock s (w.disk s)).disk = w.disk := Function.update_eq_self _ _
        have hfirst : MarksDirty w (w.setBlock s (w.disk s)) :=
          ⟨[], rfl, fun b hb => absurd (congrFun hsetBlock b) hb⟩
        exact trans_of MarksDirty (trans_of MarksDirty hfirst hmarks) (IgnoresLog.addEvent w₁ (.brelse s))
      · exact hstores.bSize
      · exact hstores.sbi
      · exact hstores.inodes

/-- The bytes of the extent at `s`, from the header on. -/
def extentData (w : World) (s : ℕ) : Block := fun i => Block.joined w.bSize w.disk s (16 + i)

/-- The room for data in an extent. -/
def extentRoom (w : World) (e : FileExtent) : ℕ := e.capacity * w.bSize - 16

theorem extentRoom_add (w : World) (hc : 1 ≤ e.capacity) :
    extentRoom w e + 16 = e.capacity * w.bSize := by
  have hone : 1 * w.bSize ≤ e.capacity * w.bSize := Nat.mul_le_mul_right w.bSize hc
  have := w.le_bSize
  unfold extentRoom
  omega

/-- A write to an extent puts the bytes where they belong and nowhere else. -/
theorem spfsWriteFileExtent_exact (hio : ∀ t b, s ≤ b → b < s + e.capacity → env.ioOk t b = true)
    (hsize : w.sbi.blockSize = w.bSize) (he : ExtentAt (w.disk s) e) (hc : 1 ≤ e.capacity)
    (hbuf : buf ≠ []) (pos extra : ℕ) :
    let room := extentRoom w e
    let k := min buf.length (room - pos)
    ∃ res header w', (spfsWriteFileExtent env s ⟨buf, pos⟩ extra).run w =
        .ok (res, header, ⟨buf.drop k, pos - room⟩,
          if e.next = 0 ∧ extra ≠ 0 then 0 else extra) w' ∧
      header.next = (if e.next = 0 ∧ extra ≠ 0 then extra else e.next) ∧
      ExtentAt (w'.disk s) { header with next := header.next % 2 ^ 32 } ∧
      (∀ i < k, buf[i]? = some (extentData w' s (pos + i))) ∧
      (∀ i, i < pos ∨ pos + k ≤ i → extentData w' s i = extentData w s i) ∧
      (∀ b, b < s ∨ s + e.capacity ≤ b → w'.disk b = w.disk b) ∧ MarksDirty w w' := by
  intro room k
  have hroom : room + 16 = e.capacity * w.bSize := extentRoom_add w hc
  obtain ⟨w', hrun, hwrites⟩ := run_spfsWriteFileExtent pos extra hio hsize he hc hbuf
  have hk : min buf.length (e.capacity * w.bSize - (16 + pos)) = k := by omega
  have hpos : 16 + pos - e.capacity * w.bSize = pos - room := by omega
  rw [hk, hpos] at hrun
  rw [hk] at hwrites
  have hdata (i : ℕ) : extentData w' s i =
      if 16 + pos ≤ 16 + i ∧ 16 + i < 16 + pos + k then
        buf.getD (16 + i - (16 + pos)) (extentData w s i) else extentData w s i := by
    have hbytes := hwrites.bytes (16 + i) (Nat.le_add_right 16 i)
    rw [Block.write_take_apply] at hbytes
    rw [extentData, hwrites.bSize]
    exact hbytes
  refine ⟨_, _, w', hrun, e.linked_next extra, hwrites.header, fun i hi => ?_, fun i hi => ?_,
    hwrites.frame, hwrites.marks⟩
  · have hindex : 16 + (pos + i) - (16 + pos) = i := by omega
    have hin : i < buf.length := by omega
    rw [hdata, if_pos (by omega), hindex, List.getElem?_eq_getElem hin, List.getD_eq_getElem _ _ hin]
  · rw [hdata, if_neg (by omega)]

/-- What `spfs_write_file_extent` says it wrote is what it took from the bytes, and the
length that it stores is where the data ends now. -/
def Accounts (w w' : World) (s : ℕ) (e : FileExtent) (pos : ℕ) (buf : List UInt8) (res : ℤ)
    (rest : WriteRest) : Prop :=
  let consumed := buf.length - rest.buf.length
  let length := (parsedExtent (w'.disk s)).length
  res = consumed ∧ length = max e.length (pos + consumed) ∧ length ≤ extentRoom w e

/-- All that is stored goes to the first block when nothing fits, when there is no other
block, or when the bytes end in the first one. -/
theorem firstShare_iff {pos len : ℕ} (hc : 1 ≤ e.capacity) (hlen : 1 ≤ len) :
    min len (w.bSize - (16 + pos)) = min len (extentRoom w e - pos) ↔
      extentRoom w e ≤ pos ∨ e.capacity = 1 ∨ 16 + pos + len ≤ w.bSize := by
  have hroom : extentRoom w e + 16 = e.capacity * w.bSize := extentRoom_add w hc
  by_cases hone : e.capacity = 1
  · rw [hone, Nat.one_mul] at hroom
    have hsame : w.bSize - (16 + pos) = extentRoom w e - pos := by omega
    rw [hsame]
    exact iff_of_true rfl (.inr (.inl hone))
  · have htwo : 2 * w.bSize ≤ e.capacity * w.bSize := Nat.mul_le_mul_right w.bSize (by omega)
    rw [← hroom] at htwo
    constructor
    · intro h
      by_cases hfull : extentRoom w e ≤ pos
      · exact .inl hfull
      · refine .inr (.inr ?_)
        omega
    · rintro (hfull | hone' | hin)
      · have hrest : extentRoom w e - pos = 0 := Nat.sub_eq_zero_of_le hfull
        have hfirst : w.bSize - (16 + pos) = 0 := by omega
        rw [hrest, hfirst]
      · exact absurd hone' hone
      · rw [Nat.min_eq_left (by omega), Nat.min_eq_left (by omega)]

/-- The length that is stored is where the data ends when nothing fits, or the bytes follow
the data and the sum has 32 bits. -/
theorem grown_iff {length room pos len k : ℕ} (hlength : length < 2 ^ 32) (hL : length ≤ room)
    (hpos : pos ≤ length) (hlen : 1 ≤ len) (hk : k = min len (room - pos)) :
    (length + k) % 2 ^ 32 = max length (pos + k) ∧ (length + k) % 2 ^ 32 ≤ room ↔
      room ≤ pos ∨ pos = length ∧ length + k < 2 ^ 32 := by
  have hle : k ≤ room - pos := hk.trans_le (Nat.min_le_right _ _)
  by_cases hfull : room ≤ pos
  · have hnone : k = 0 := Nat.eq_zero_of_le_zero (hle.trans (Nat.sub_eq_zero_of_le hfull).le)
    rw [hnone, Nat.add_zero, Nat.add_zero, Nat.mod_eq_of_lt hlength]
    exact iff_of_true ⟨(Nat.max_eq_left hpos).symm, hL⟩ (.inl hfull)
  · have hsome : 1 ≤ k := by
      rw [hk]
      exact Nat.le_min.mpr ⟨hlen, Nat.sub_pos_of_lt (Nat.lt_of_not_le hfull)⟩
    clear hk
    constructor
    · rintro ⟨hmax, -⟩
      refine .inr ⟨?_, ?_⟩
      · omega
      · omega
    · rintro (hfull' | ⟨rfl, hfits⟩)
      · exact absurd hfull' hfull
      · rw [Nat.mod_eq_of_lt hfits]
        exact ⟨(Nat.max_eq_right (Nat.le_add_right _ _)).symm, by omega⟩

/-- A write accounts for itself in three cases only: nothing fits, or it starts at the end
of the data, stays in the first block, and does not take the length over 32 bits. -/
theorem spfsWriteFileExtent_accounts_iff {pos extra extra' : ℕ} {res : ℤ} {header : FileExtent}
    {rest : WriteRest} (hio : ∀ t b, s ≤ b → b < s + e.capacity → env.ioOk t b = true)
    (hsize : w.sbi.blockSize = w.bSize) (he : ExtentAt (w.disk s) e) (hc : 1 ≤ e.capacity)
    (hL : e.length ≤ extentRoom w e) (hbuf : buf ≠ []) (hpos : pos ≤ e.length)
    (h : (spfsWriteFileExtent env s ⟨buf, pos⟩ extra).run w = .ok (res, header, rest, extra') w') :
    Accounts w w' s e pos buf res rest ↔ pos = extentRoom w e ∨
      pos = e.length ∧ e.length + min buf.length (extentRoom w e - pos) < 2 ^ 32 ∧
        (e.capacity = 1 ∨ 16 + pos + buf.length ≤ w.bSize) := by
  have hroom : extentRoom w e + 16 = e.capacity * w.bSize := extentRoom_add w hc
  have hlen : 1 ≤ buf.length := List.length_pos_iff.mpr hbuf
  obtain ⟨-, -, hlength⟩ := he.bounds
  obtain ⟨w'', hrun, hwrites⟩ := run_spfsWriteFileExtent pos extra hio hsize he hc hbuf
  rw [hrun] at h
  cases h
  have hk : min buf.length (e.capacity * w.bSize - (16 + pos)) = min buf.length (extentRoom w e - pos) := by
    rw [← hroom, Nat.add_comm, Nat.add_sub_add_left]
  rw [hk] at hwrites ⊢
  set k := min buf.length (extentRoom w e - pos) with hk'
  have hlen' : (parsedExtent (w'.disk s)).length = (e.length + k) % 2 ^ 32 := by
    rw [hwrites.header.eq]
    show ((e.linked extra).length + k) % 2 ^ 32 = _
    rw [e.linked_length extra]
  have hconsumed : buf.length - (buf.drop k).length = k := by
    rw [List.length_drop, Nat.sub_sub_self (Nat.min_le_left _ _)]
  have hfull : pos = extentRoom w e ↔ extentRoom w e ≤ pos :=
    ⟨fun h => h.ge, (hpos.trans hL).antisymm⟩
  unfold Accounts
  simp only [hconsumed, hlen']
  rw [Int.natCast_inj, firstShare_iff hc hlen, grown_iff hlength hL hpos hlen hk', hfull, ← or_and_left]
  refine or_congr_right ⟨?_, ?_⟩
  · rintro ⟨hin, hend, hfits⟩
    exact ⟨hend, hfits, hin⟩
  · rintro ⟨hend, hfits, hin⟩
    exact ⟨hin, hend, hfits⟩

end Write

/-! ## An extent of two blocks -/

/-- The header of an extent of two blocks in which 10 bytes are used. -/
def tenBytes : FileExtent := ⟨0, 2, 10⟩

def extentWorld : World := freshWorld.setBlock 50 (withExtent tenBytes fun _ => 0)

theorem extentAt_extentWorld : ExtentAt (extentWorld.disk 50) tenBytes := by
  have hblock : extentWorld.disk 50 = withExtent tenBytes fun _ => 0 := rfl
  rw [hblock]
  exact extentAt_withExtent _ (by decide) (by decide) (by decide)

theorem spfsWriteFileExtent_exact_two :
    let room := extentRoom extentWorld tenBytes
    let k := min 3 (room - 4)
    ∃ res header w', (spfsWriteFileExtent (.calm 9) 50 ⟨[1, 2, 3], 4⟩ 60).run extentWorld =
        .ok (res, header, ⟨[1, 2, 3].drop k, 4 - room⟩,
          if tenBytes.next = 0 ∧ 60 ≠ 0 then 0 else 60) w' ∧
      header.next = (if tenBytes.next = 0 ∧ 60 ≠ 0 then 60 else tenBytes.next) ∧
      ExtentAt (w'.disk 50) { header with next := header.next % 2 ^ 32 } ∧
      (∀ i < k, [1, 2, 3][i]? = some (extentData w' 50 (4 + i))) ∧
      (∀ i, i < 4 ∨ 4 + k ≤ i → extentData w' 50 i = extentData extentWorld 50 i) ∧
      (∀ b, b < 50 ∨ 50 + tenBytes.capacity ≤ b → w'.disk b = extentWorld.disk b) ∧
      MarksDirty extentWorld w' :=
  spfsWriteFileExtent_exact (fun _ _ _ _ => rfl) rfl extentAt_extentWorld (by decide)
    (List.cons_ne_nil _ _) 4 60

/-- Three bytes over the ten that are there. -/
theorem run_overwrite :
    ∃ res header rest extra' w',
      (spfsWriteFileExtent (.calm 9) 50 ⟨[1, 2, 3], 4⟩ 0).run extentWorld =
        .ok (res, header, rest, extra') w' ∧
      rest.buf = [] ∧ (parsedExtent (w'.disk 50)).length = 13 := by
  obtain ⟨w', hrun, hwrites⟩ := @run_spfsWriteFileExtent (.calm 9) extentWorld 50 tenBytes [1, 2, 3] 4 0
    (fun _ _ _ _ => rfl) rfl extentAt_extentWorld (by decide) (List.cons_ne_nil 1 [2, 3])
  refine ⟨_, _, _, _, w', hrun, rfl, ?_⟩
  rw [hwrites.header.eq]
  rfl

theorem spfsWriteFileExtent_accounts_iff_overwrite :
    ∃ res header rest extra' w',
      (spfsWriteFileExtent (.calm 9) 50 ⟨[1, 2, 3], 4⟩ 0).run extentWorld =
        .ok (res, header, rest, extra') w' ∧
      (Accounts extentWorld w' 50 tenBytes 4 [1, 2, 3] res rest ↔
        4 = extentRoom extentWorld tenBytes ∨
        4 = tenBytes.length ∧ tenBytes.length + min 3 (extentRoom extentWorld tenBytes - 4) < 2 ^ 32 ∧
          (tenBytes.capacity = 1 ∨ 16 + 4 + 3 ≤ extentWorld.bSize)) := by
  obtain ⟨res, header, rest, extra', w', hrun, -⟩ := run_overwrite
  exact ⟨res, header, rest, extra', w', hrun, spfsWriteFileExtent_accounts_iff (fun _ _ _ _ => rfl) rfl
    extentAt_extentWorld (by decide) (by decide) (List.cons_ne_nil 1 [2, 3]) (by decide) hrun⟩

/-- The bytes that were overwritten are counted again. -/
theorem not_accounts_overwrite :
    ∃ res header rest extra' w',
      (spfsWriteFileExtent (.calm 9) 50 ⟨[1, 2, 3], 4⟩ 0).run extentWorld =
        .ok (res, header, rest, extra') w' ∧
      ¬ Accounts extentWorld w' 50 tenBytes 4 [1, 2, 3] res rest := by
  obtain ⟨res, header, rest, extra', w', hrun, hrest, hlength⟩ := run_overwrite
  refine ⟨res, header, rest, extra', w', hrun, fun ⟨_, hmax, _⟩ => ?_⟩
  rw [hrest, hlength] at hmax
  exact absurd hmax (by decide)

end Spfs
