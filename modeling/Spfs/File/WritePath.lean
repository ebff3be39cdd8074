-- SUMMARY: What a write does to the extents on its way, block by block, when reads may fail; which writes come through.
import Spfs.Btree.Answer
import Spfs.File.Isolation

/-!
# Writes on their way

The walk of a write over the extents as a function of the device, the position and the bytes
that are left (`WriteState.takeExtent`). It stops where a block cannot be read or a header is
none. `spfs_write_file_extent` does just that (`spfsWriteFileExtent_takes`) and reports the
bytes that went to the first block; for the loop of `spfs_write` any such byte is an error,
so a write comes through when it passes the first block of every extent (`WalksPast`).
-/

namespace Spfs

open EStateM (Within)

/-! ## Blocks -/

/-- The `n` blocks from `it` on after the bytes were stored there behind the position, and the
time when that is done; none when a block that takes bytes cannot be read. -/
def storeBlocks (env : Env) (bSize : ℕ) :
    ℕ → ℕ → ℕ → ℕ → List UInt8 → (ℕ → Block) → Option (ℕ × (ℕ → Block))
  | 0, t, _, _, _, disk => some (t, disk)
  | n + 1, t, it, pos, buf, disk =>
    if buf = [] then some (t, disk)
    else if bSize ≤ pos then storeBlocks env bSize n t (it + 1) (pos - bSize) buf disk
    else if env.ioOk t it then
      let k := min buf.length (bSize - pos)
      storeBlocks env bSize n (t + 3) (it + 1) 0 (buf.drop k)
        (Function.update disk it ((disk it).write pos (buf.take k)))
    else none

/-- The blocks have become those of `disk` at the time `t`, and every buffer was given back. -/
structure Stored (w w' : World) (t : ℕ) (disk : ℕ → Block) : Prop where
  disk : w'.disk = disk
  time : w'.time = t
  bSize : w'.bSize = w.bSize
  blockSize : w'.sbi.blockSize = w.sbi.blockSize
  balanced : Balanced w w'

section Blocks

variable {env : Env} {w w' : World} {it pos : ℕ} {buf : List UInt8} {header : FileExtent}

theorem Stored.refl (w : World) : Stored w w w.time w.disk := ⟨rfl, rfl, rfl, rfl, refl_of Balanced w⟩

theorem Stored.trans {w₁ : World} {t t' : ℕ} {disk disk' : ℕ → Block} (h : Stored w w₁ t disk)
    (h' : Stored w₁ w' t' disk') : Stored w w' t' disk' where
  disk := h'.disk
  time := h'.time
  bSize := h'.bSize.trans h.bSize
  blockSize := h'.blockSize.trans h.blockSize
  balanced := h.balanced.trans h'.balanced

/-- The state after a block took its share. -/
def afterBlock (w : World) (it pos : ℕ) (bytes : List UInt8) : World :=
  (((w.addEvent (.bread it true)).setBlock it ((w.disk it).write pos bytes)).addEvent
    (.dirty it)).addEvent (.brelse it)

theorem stored_afterBlock (w : World) (it pos : ℕ) (bytes : List UInt8) :
    Stored w (afterBlock w it pos bytes) (w.time + 3)
      (Function.update w.disk it ((w.disk it).write pos bytes)) where
  disk := rfl
  time := rfl
  bSize := rfl
  blockSize := rfl
  balanced := balanced_visit w _ it [.dirty it] (fun _ => rfl) rfl

/-- A block in which the position falls takes its share, when it can be read. -/
theorem run_spfsWriteFileExtentBlocks_take (n : ℕ) (dirty : Bool) (hsize : w.sbi.blockSize = w.bSize)
    (hbuf : buf ≠ []) (hin : pos < w.bSize) (hio : env.ioOk w.time it = true) :
    let k := min buf.length (w.bSize - pos)
    (spfsWriteFileExtentBlocks env (n + 1) it ⟨header, dirty, ⟨buf, pos⟩⟩).run w =
      (spfsWriteFileExtentBlocks env n (it + 1) ⟨header.grow k, true, ⟨buf.drop k, 0⟩⟩).run
        (afterBlock w it pos (buf.take k)) := by
  intro k
  have hlen : 1 ≤ buf.length := List.length_pos_iff.mpr hbuf
  have hsome : 0 < k := by omega
  have hsector : spfsInSector w.sbi pos = true := by
    rw [spfsInSector, hsize]
    exact decide_eq_true hin
  have hread : (sbBread env it).run w = .ok true (w.addEvent (.bread it true)) :=
    run_sbBread_ok hio
  have hwrite := run_spfsDoWrite (w := w.addEvent (.bread it true)) (s := it) (Nat.zero_le _) buf pos
  simp only [Nat.zero_add, World.addEvent_bSize, World.addEvent_disk, Nat.sub_zero] at hwrite
  have hzero : pos - w.bSize = 0 := Nat.sub_eq_zero_of_le hin.le
  rw [spfsWriteFileExtentBlocks, if_neg hbuf, EStateM.run_bind_of_ok (EStateM.run_get w),
    if_pos hsector, EStateM.run_check_of_true hread, EStateM.run_bind_of_ok hwrite]
  dsimp only
  rw [if_pos hsome, EStateM.run_bind_of_ok (run_markBufferDirty _ _),
    EStateM.run_bind_of_ok (run_brelse _ _), hzero, decide_eq_true hsome, Bool.or_true]
  rfl

/-- A block before the position is skipped. -/
theorem run_spfsWriteFileExtentBlocks_skip (n : ℕ) (dirty : Bool) (hsize : w.sbi.blockSize = w.bSize)
    (hbuf : buf ≠ []) (hin : w.bSize ≤ pos) :
    (spfsWriteFileExtentBlocks env (n + 1) it ⟨header, dirty, ⟨buf, pos⟩⟩).run w =
      (spfsWriteFileExtentBlocks env n (it + 1) ⟨header, dirty, ⟨buf, pos - w.bSize⟩⟩).run w := by
  have hsector : ¬ spfsInSector w.sbi pos = true := by
    rw [spfsInSector, hsize, decide_eq_true_iff]
    omega
  have hok : (bugOn (pos < w.sbi.blockSize) : Kernel Unit).run w = .ok () w := by
    rw [run_bugOn, if_neg (by rw [hsize]; omega)]
  rw [spfsWriteFileExtentBlocks, if_neg hbuf, EStateM.run_bind_of_ok (EStateM.run_get w),
    if_neg hsector, EStateM.run_bind_of_ok (EStateM.run_get w), EStateM.run_bind_of_ok hok, hsize]

/-- The loop over the blocks stores what fits, or a block cannot be read. -/
theorem spfsWriteFileExtentBlocks_stores {n : ℕ} {dirty : Bool} {r : Except ℤ ExtentWrite}
    (hsize : w.sbi.blockSize = w.bSize) (hlength : header.length < 2 ^ 32)
    (hdone : buf = [] → pos = 0)
    (hrun : (spfsWriteFileExtentBlocks env n it ⟨header, dirty, ⟨buf, pos⟩⟩).run w = .ok r w') :
    let k := min buf.length (n * w.bSize - pos)
    (∃ t disk, storeBlocks env w.bSize n w.time it pos buf w.disk = some (t, disk) ∧
        r = .ok ⟨header.grow k, dirty || decide (0 < k), ⟨buf.drop k, pos - n * w.bSize⟩⟩ ∧
        Stored w w' t disk) ∨
      (storeBlocks env w.bSize n w.time it pos buf w.disk = none ∧ r = .error (- EIO)) := by
  induction n generalizing it pos header dirty buf w with
  | zero =>
    intro k
    have hk : k = 0 := by omega
    rw [hk]
    cases hrun
    refine .inl ⟨_, _, rfl, ?_, .refl w'⟩
    rw [FileExtent.grow_zero hlength, Nat.zero_mul, Nat.sub_zero]
    simp
  | succ n ih =>
    intro k
    by_cases hbuf : buf = []
    · obtain rfl := hdone hbuf
      subst hbuf
      have hk : k = 0 := Nat.zero_min _
      rw [hk]
      cases hrun
      refine .inl ⟨_, _, rfl, ?_, .refl w'⟩
      rw [FileExtent.grow_zero hlength, Nat.zero_sub]
      simp
    have hlen : 1 ≤ buf.length := List.length_pos_iff.mpr hbuf
    have hk : k = min buf.length (w.bSize + n * w.bSize - pos) := by
      rw [Nat.add_comm w.bSize, ← Nat.succ_mul]
    rw [storeBlocks, if_neg hbuf]
    by_cases hin : w.bSize ≤ pos
    · -- the position is behind this block
      rw [if_pos hin]
      rw [run_spfsWriteFileExtentBlocks_skip n dirty hsize hbuf hin] at hrun
      have hrest : min buf.length (n * w.bSize - (pos - w.bSize)) = k := by
        rw [hk, Nat.sub_sub_right _ hin, Nat.add_comm]
      have hpos : pos - w.bSize - n * w.bSize = pos - (n + 1) * w.bSize := by
        rw [Nat.sub_sub, Nat.add_comm, ← Nat.succ_mul]
      have hstores := ih hsize hlength (fun h => absurd h hbuf) hrun
      rwa [hrest, hpos] at hstores
    rw [if_neg hin]
    have hin' : pos < w.bSize := Nat.lt_of_not_le hin
    by_cases hio : env.ioOk w.time it = true
    · rw [if_pos hio]
      rw [run_spfsWriteFileExtentBlocks_take n dirty hsize hbuf hin' hio] at hrun
      set k₁ := min buf.length (w.bSize - pos)
      have hstored := stored_afterBlock w it pos (buf.take k₁)
      set w₁ := afterBlock w it pos (buf.take k₁)
      have hb₁ : w₁.bSize = w.bSize := hstored.bSize
      have hs₁ : w₁.sbi.blockSize = w₁.bSize := by
        rw [hstored.blockSize, hb₁]
        exact hsize
      have hrest := ih hs₁ (header.grow_length_lt k₁) (fun _ => rfl) hrun
      dsimp only at hrest ⊢
      have hle : k₁ ≤ k := by
        rw [hk]
        exact share_le _ _ _ _
      have hkk : min (buf.drop k₁).length (n * w.bSize - 0) = k - k₁ := by
        have hnone : pos - w.bSize = 0 := Nat.sub_eq_zero_of_le hin'.le
        rw [List.length_drop, ← hnone, share_rest, hk]
      have hsum : k₁ + (k - k₁) = k := Nat.add_sub_cancel' hle
      have hpos : 0 - n * w.bSize = pos - (n + 1) * w.bSize := by
        rw [Nat.succ_mul]
        omega
      have hor : (true || decide (0 < k - k₁)) = (dirty || decide (0 < k)) := by
        have hsome : 0 < k := by omega
        rw [Bool.true_or, decide_eq_true hsome, Bool.or_true]
      rw [hb₁, hkk, hstored.disk, hstored.time, FileExtent.grow_grow, List.drop_drop, hsum, hpos,
        hor] at hrest
      rcases hrest with ⟨t, disk, hsome, hr, hstored'⟩ | ⟨hnone, hr⟩
      · exact .inl ⟨t, disk, hsome, hr, hstored.trans hstored'⟩
      · exact .inr ⟨hnone, hr⟩
    · rw [if_neg hio]
      have hsector : spfsInSector w.sbi pos = true := by
        rw [spfsInSector, hsize]
        exact decide_eq_true hin'
      have hread : (sbBread env it).run w = .ok false (w.addEvent (.bread it false)) :=
        run_sbBread_failed (Bool.eq_false_iff.mpr hio)
      rw [spfsWriteFileExtentBlocks, if_neg hbuf, EStateM.run_bind_of_ok (EStateM.run_get w),
        if_pos hsector, EStateM.run_check_of_false hread] at hrun
      cases hrun
      exact .inr ⟨rfl, rfl⟩

end Blocks

/-! ## Extents -/

/-- Where a write is: the time, the blocks, the extent in front of it, and what is left to
write. -/
structure WriteState where
  time : ℕ
  disk : ℕ → Block
  start : ℕ
  buf : List UInt8
  pos : ℕ
  extra : ℕ

/-- What the write leaves of the extent in front of it, with the bytes that went to its first
block; none when a block that it needs cannot be read or the header is none. -/
def WriteState.takeExtent (env : Env) (bSize : ℕ) (x : WriteState) : Option (ℕ × WriteState) :=
  if env.ioOk x.time x.start = true ∧ extentMagic (x.disk x.start) = spookyFsFileBlockMagic then
    let old := parsedExtent (x.disk x.start)
    let k₁ := min x.buf.length (bSize - (16 + x.pos))
    let n := old.capacity - 1
    let pos := 16 + x.pos - bSize
    let k₂ := min (x.buf.length - k₁) (n * bSize - pos)
    let header := (old.linked x.extra).grow (k₁ + k₂)
    let link := old.next = 0 ∧ x.extra ≠ 0
    let disk := Function.update x.disk x.start ((x.disk x.start).write (16 + x.pos) (x.buf.take k₁))
    (storeBlocks env bSize n (x.time + 1) (x.start + 1) pos (x.buf.drop k₁) disk).map fun (t, disk) =>
      (k₁, {
        time := if link ∨ 0 < k₁ + k₂ then t + 2 else t + 1
        disk :=
          if link ∨ 0 < k₁ + k₂ then Function.update disk x.start (withExtent header (disk x.start))
          else disk
        start := header.next
        buf := x.buf.drop (k₁ + k₂)
        pos := pos - n * bSize
        extra := if link then 0 else x.extra })
  else none

section Extent

variable {env : Env} {w w' : World} {s pos extra extra' : ℕ} {buf : List UInt8} {rest : WriteRest}
  {header : FileExtent} {res : ℤ}

/-- Where a write stands in a state. -/
def writeAt (w : World) (s : ℕ) (buf : List UInt8) (pos extra : ℕ) : WriteState :=
  ⟨w.time, w.disk, s, buf, pos, extra⟩

/-- The buffer of the header is released as it is. -/
theorem Stored.release {b : Block} {t : ℕ} {disk : ℕ → Block}
    (h : Stored ((w.addEvent (.bread s true)).setBlock s b) w' t disk) :
    Stored w (w'.addEvent (.brelse s)) (t + 1) disk where
  disk := h.disk
  time := by rw [World.addEvent_time, h.time]
  bSize := h.bSize
  blockSize := h.blockSize
  balanced := by
    have hmid : Balanced (w.addEvent (.bread s true)) w' := h.balanced.of_log rfl rfl
    exact hmid.of_bread_brelse

/-- The buffer of the header gets the header before it is released. -/
theorem Stored.release_dirty {b : Block} {t : ℕ} {disk : ℕ → Block} (b' : Block)
    (h : Stored ((w.addEvent (.bread s true)).setBlock s b) w' t disk) :
    Stored w (((w'.setBlock s b').addEvent (.dirty s)).addEvent (.brelse s)) (t + 2)
      (Function.update disk s b') where
  disk := by
    rw [← h.disk]
    rfl
  time := congrArg (· + 2) h.time
  bSize := h.bSize
  blockSize := h.blockSize
  balanced := by
    have hdirty : Balanced w' ((w'.setBlock s b').addEvent (.dirty s)) :=
      (Takes.event (fun _ => rfl) (w'.setBlock s b')).of_log rfl rfl
    have hmid : Balanced (w.addEvent (.bread s true)) w' := h.balanced.of_log rfl rfl
    exact (hmid.trans hdirty).of_bread_brelse

/-- A write to an extent that returns does what the walk says, or fails where the walk stops. -/
theorem spfsWriteFileExtent_takes (hsize : w.sbi.blockSize = w.bSize) (hbuf : buf ≠ [])
    (hrun : (spfsWriteFileExtent env s ⟨buf, pos⟩ extra).run w = .ok (res, header, rest, extra') w') :
    (∃ k x, (writeAt w s buf pos extra).takeExtent env w.bSize = some (k, x) ∧ res = (k : ℤ) ∧
        x.start = header.next ∧ x.buf = rest.buf ∧ x.pos = rest.pos ∧ x.extra = extra' ∧
        Stored w w' x.time x.disk) ∨
      ((writeAt w s buf pos extra).takeExtent env w.bSize = none ∧ res < 0) := by
  have hhead : 16 ≤ w.bSize := le_trans (by decide) w.le_bSize
  rw [WriteState.takeExtent, writeAt]
  dsimp only
  rw [spfsWriteFileExtent] at hrun
  by_cases hio : env.ioOk w.time s = true
  case neg =>
    have hread : (sbBread env s).run w = .ok false (w.addEvent (.bread s false)) :=
      run_sbBread_failed (Bool.eq_false_iff.mpr hio)
    rw [EStateM.run_check_of_false hread] at hrun
    cases hrun
    exact .inr ⟨if_neg fun h => hio h.1, by decide⟩
  have hread : (sbBread env s).run w = .ok true (w.addEvent (.bread s true)) :=
    run_sbBread_ok hio
  rw [EStateM.run_check_of_true hread] at hrun
  set w₁ := w.addEvent (.bread s true) with hw₁
  by_cases hmagic : extentMagic (w.disk s) = spookyFsFileBlockMagic
  case neg =>
    have hparse : (parseBuf s 0 spfsParseFileExtent).run w₁ = .ok (.error (-EINVAL), 16) w₁ := by
      rw [run_parseBuf, run_spfsParseFileExtent w₁.le_bSize, hw₁, World.addEvent_disk, if_neg hmagic]
    rw [EStateM.run_bind_of_ok hparse, hw₁] at hrun
    cases hrun
    exact .inr ⟨if_neg fun h => hmagic h.2, by decide⟩
  rw [if_pos ⟨hio, hmagic⟩]
  set old := parsedExtent (w.disk s)
  have he₁ : ExtentAt (w₁.disk s) old := ⟨hmagic, rfl⟩
  have hparse : (parseBuf s 0 spfsParseFileExtent).run w₁ = .ok (.ok old, 16) w₁ := by
    rw [run_parseBuf, he₁.run_parse w₁.le_bSize]
  set k₁ := min buf.length (w.bSize - (16 + pos))
  have hwrite : (spfsDoWrite s 16 ⟨buf, pos⟩).run w₁ = .ok (k₁, ⟨buf.drop k₁, 16 + pos - w.bSize⟩)
      (w₁.setBlock s ((w.disk s).write (16 + pos) (buf.take k₁))) := by
    have hshift : pos - (w₁.bSize - 16) = 16 + pos - w.bSize := by
      rw [hw₁, World.addEvent_bSize]
      omega
    rw [run_spfsDoWrite (by rw [hw₁, World.addEvent_bSize]; exact hhead), hshift]
    rfl
  rw [EStateM.run_bind_of_ok hparse] at hrun
  dsimp only at hrun
  rw [EStateM.run_bind_of_ok hwrite] at hrun
  set w₃ := w₁.setBlock s ((w.disk s).write (16 + pos) (buf.take k₁))
  have hlinked : (if old.next = 0 ∧ extra ≠ 0 then { old with next := extra } else old) =
      old.linked extra := rfl
  dsimp only at hrun
  rw [hlinked] at hrun
  have hcap : (old.linked extra).capacity - 1 = old.capacity - 1 := by
    rw [old.linked_capacity extra]
  rw [hcap] at hrun
  obtain ⟨r, w₄, hblocks, hrun₄⟩ := EStateM.run_bind_eq_ok.mp hrun
  have hdone : buf.drop k₁ = [] → 16 + pos - w.bSize = 0 := pos_of_drop_share hbuf
  have hstores := spfsWriteFileExtentBlocks_stores (w := w₃) hsize
    ((old.linked extra).grow_length_lt k₁) hdone hblocks
  dsimp only at hstores
  have htime₃ : w₃.time = w.time + 1 := rfl
  have hdisk₃ : w₃.disk = Function.update w.disk s ((w.disk s).write (16 + pos) (buf.take k₁)) := rfl
  have hb₃ : w₃.bSize = w.bSize := rfl
  rw [htime₃, hdisk₃, hb₃, List.length_drop, FileExtent.grow_grow, List.drop_drop] at hstores
  rcases hstores with ⟨t, disk, hsome, rfl, hstored⟩ | ⟨hnone, rfl⟩
  case inr =>
    cases hrun₄
    exact .inr ⟨by rw [hnone]; rfl, by decide⟩
  refine .inl ⟨k₁, _, by rw [hsome]; rfl, ?_⟩
  set k₂ := min (buf.length - k₁) ((old.capacity - 1) * w.bSize - (16 + pos - w.bSize))
  dsimp only at hrun₄ ⊢
  set dirty := decide (old.next = 0 ∧ extra ≠ 0) || decide (0 < k₁) || decide (0 < k₂) with hdirty
  have hdirty' : dirty = true ↔ (old.next = 0 ∧ extra ≠ 0) ∨ 0 < k₁ + k₂ := by
    rw [hdirty, Bool.or_eq_true, Bool.or_eq_true, decide_eq_true_iff, decide_eq_true_iff,
      decide_eq_true_iff, or_assoc]
    exact or_congr_right (by omega)
  by_cases hd : dirty = true
  · have hmake : (makeBuf s 0 (spfsMakeFileExtent ((old.linked extra).grow (k₁ + k₂)))).run w₄ =
        .ok (0, 16) (w₄.setBlock s (withExtent ((old.linked extra).grow (k₁ + k₂)) (w₄.disk s))) := by
      rw [run_makeBuf, run_spfsMakeFileExtent _ w₄.le_bSize]
    rw [if_pos hd, EStateM.run_bind_of_ok hmake] at hrun₄
    cases hrun₄
    rw [if_pos (hdirty'.mp hd), if_pos (hdirty'.mp hd)]
    refine ⟨rfl, rfl, rfl, rfl, rfl, ?_⟩
    have hreleased :=
      hstored.release_dirty (withExtent ((old.linked extra).grow (k₁ + k₂)) (w₄.disk s))
    rwa [hstored.disk] at hreleased ⊢
  · rw [if_neg hd] at hrun₄
    cases hrun₄
    rw [if_neg (mt hdirty'.mpr hd), if_neg (mt hdirty'.mpr hd)]
    exact ⟨rfl, rfl, rfl, rfl, rfl, hstored.release⟩

/-! ## The whole walk -/

/-- A write walks over the extents, and the numbers of bytes in their first blocks are as
they should be. -/
inductive Walk (env : Env) (bSize : ℕ) (ok : ℕ → Prop) : WriteState → Prop
  | done {x : WriteState} (hs : x.start = 0) : Walk env bSize ok x
  | extent {x x' : WriteState} {k : ℕ} (hs : x.start ≠ 0)
      (htake : x.takeExtent env bSize = some (k, x')) (hk : ok k)
      (hnext : x'.buf ≠ [] → Walk env bSize ok x') : Walk env bSize ok x

/-- No byte goes to the first block of an extent. -/
abbrev WalksPast (env : Env) (bSize : ℕ) := Walk env bSize (· = 0)

theorem Walk.mono {ok ok' : ℕ → Prop} {bSize : ℕ} {x : WriteState} (h : Walk env bSize ok x)
    (hle : ∀ k, ok k → ok' k) : Walk env bSize ok' x := by
  induction h with
  | done hs => exact .done hs
  | extent hs htake hk _ ih => exact .extent hs htake (hle _ hk) ih

/-- The loop of a write that returns has walked past the extents, or it has failed and does
not walk past them. -/
theorem spfsWriteLit_walks {fuel : ℕ} {written : ℤ} {r : Except ℤ (ℤ × WriteRest × ℕ)}
    (hsize : w.sbi.blockSize = w.bSize) (hbuf : buf ≠ [])
    (hrun : (spfsWriteLit env fuel s ⟨buf, pos⟩ extra written).run w = .ok r w') :
    (WalksPast env w.bSize (writeAt w s buf pos extra) ∧ (∃ rest' extra', r = .ok (written, rest', extra')) ∧
        Balanced w w') ∨
      (¬ WalksPast env w.bSize (writeAt w s buf pos extra) ∧ r = .error (- EIO)) := by
  induction fuel generalizing s buf pos extra written w with
  | zero =>
    cases s with
    | zero =>
      cases hrun
      exact .inl ⟨.done rfl, ⟨_, _, rfl⟩, refl_of Balanced _⟩
    | succ s => cases hrun
  | succ fuel ih =>
    by_cases hs : s = 0
    · subst hs
      cases hrun
      exact .inl ⟨.done rfl, ⟨_, _, rfl⟩, refl_of Balanced _⟩
    rw [spfsWriteLit] at hrun
    case x_5 => exact hs
    obtain ⟨⟨res, header, rest, extra₁⟩, w₁, hextent, hrun₁⟩ := EStateM.run_bind_eq_ok.mp hrun
    dsimp only at hrun₁
    rcases spfsWriteFileExtent_takes hsize hbuf hextent with
      ⟨k, x, htake, rfl, hstart, hxbuf, hxpos, hxextra, hstored⟩ | ⟨hnone, hneg⟩
    case inr =>
      have hres : res ≠ 0 := by omega
      rw [if_pos hres] at hrun₁
      cases hrun₁
      refine .inr ⟨fun hwalk => ?_, rfl⟩
      cases hwalk with
      | done hzero => exact hs hzero
      | extent _ htake =>
        rw [hnone] at htake
        cases htake
    by_cases hk : k = 0
    case neg =>
      have hres : (k : ℤ) ≠ 0 := Int.natCast_ne_zero.mpr hk
      rw [if_pos hres] at hrun₁
      cases hrun₁
      refine .inr ⟨fun hwalk => ?_, rfl⟩
      cases hwalk with
      | done hzero => exact hs hzero
      | extent _ htake' hk' =>
        rw [htake] at htake'
        cases htake'
        exact hk hk'
    subst hk
    have hzero : written + ((0 : ℕ) : ℤ) = written := Int.add_zero written
    rw [if_neg (by simp), hzero] at hrun₁
    by_cases hmore : rest.buf ≠ []
    · rw [if_pos hmore] at hrun₁
      have hsize₁ : w₁.sbi.blockSize = w₁.bSize := by
        rw [hstored.blockSize, hstored.bSize, hsize]
      have hat : writeAt w₁ header.next rest.buf rest.pos extra₁ = x := by
        rw [writeAt, hstored.time, hstored.disk, ← hstart, ← hxbuf, ← hxpos, ← hxextra]
      have hrest := ih hsize₁ hmore hrun₁
      rw [hat, hstored.bSize] at hrest
      rcases hrest with ⟨hwalk, hr, hbal⟩ | ⟨hnot, hr⟩
      · exact .inl ⟨.extent hs htake rfl fun _ => hwalk, hr, hstored.balanced.trans hbal⟩
      · refine .inr ⟨fun hwalk => ?_, hr⟩
        cases hwalk with
        | done hzero => exact hs hzero
        | extent _ htake' _ hnext =>
          rw [htake] at htake'
          cases htake'
          exact hnot (hnext (by rwa [hxbuf]))
    · rw [if_neg hmore] at hrun₁
      cases hrun₁
      refine .inl ⟨.extent hs htake rfl fun h => ?_, ⟨_, _, rfl⟩, hstored.balanced⟩
      rw [hxbuf] at h
      exact absurd h hmore

end Extent

/-! ## Room for the bytes -/

/-- What `spfs_ensure_capacity` comes to: where the walk over the extents begins, or the
result of a refusal. -/
inductive Room where
  | ready (x : WriteState)
  | refused (res : ℤ)

/-- The blocks of the extent that a write needs besides those of the file. -/
def extraBlocks (w : World) (i : SpfsInode) (pos len : ℕ) : ℕ :=
  spfsCalcExtraBlocks w.sbi.blockSize i.capacity pos len

/-- The inode after the extent `s` of `blocks` blocks was added to its capacity. -/
def SpfsInode.grown (i : SpfsInode) (blockSize s blocks : ℕ) : SpfsInode :=
  { i with
    start := if i.start = 0 then s else i.start
    capacity := (i.capacity +
      (blocks * blockSize % 2 ^ 64 + 2 ^ 64 - spfsSizeofFileExtentHeader) % 2 ^ 64) % 2 ^ 32 }

theorem SpfsInode.grown_iIno (i : SpfsInode) (blockSize s blocks : ℕ) :
    (i.grown blockSize s blocks).iIno = i.iIno := by
  unfold grown
  rfl

/-- The blocks after the header of a new extent was written. -/
def withNewExtent (disk : ℕ → Block) (s blocks : ℕ) : ℕ → Block :=
  Function.update disk s (withExtent ⟨0, blocks % 2 ^ 32, 0⟩ (disk s))

/-- The record of the inode at `offset`, read at the time `t`, gets the new start and
capacity. -/
def withStart (env : Env) (disk : ℕ → Block) (offset t : ℕ) (j : SpfsInode) : ℕ → Block :=
  Function.update disk offset (withRecord (env.stack (t + 1))
    { parsedInode (env.junk (t + 1)) (disk offset) with
      start := j.start, capacity := j.capacity % 2 ^ 32 } (disk offset))

/-- Every way that the search for room can go. -/
inductive GetsRoom (env : Env) (w : World) (i : SpfsInode) (buf : List UInt8) (pos : ℕ) : Room → Prop
  | enough (hblocks : extraBlocks w i pos buf.length = 0) :
      GetsRoom env w i buf pos (.ready (writeAt w i.start buf pos 0))
  | full (hblocks : extraBlocks w i pos buf.length ≠ 0)
      (hs : (spfsFreeAlloc w.sbi.freeList (extraBlocks w i pos buf.length)).1 = 0) :
      GetsRoom env w i buf pos (.refused (- EIO))
  | unrecorded {s : ℕ} {a : Answer} (hblocks : extraBlocks w i pos buf.length ≠ 0)
      (hs : (spfsFreeAlloc w.sbi.freeList (extraBlocks w i pos buf.length)).1 = s) (hne : s ≠ 0)
      (ha : TreeAnswers env w.bSize (withNewExtent w.disk s (extraBlocks w i pos buf.length)) i.iIno
        (w.time + 4) w.sbi.tree.start a)
      (hcode : a.code ≠ 0) : GetsRoom env w i buf pos (.refused a.code)
  | recorded {s offset t : ℕ} (hblocks : extraBlocks w i pos buf.length ≠ 0)
      (hs : (spfsFreeAlloc w.sbi.freeList (extraBlocks w i pos buf.length)).1 = s) (hne : s ≠ 0)
      (ha : TreeAnswers env w.bSize (withNewExtent w.disk s (extraBlocks w i pos buf.length)) i.iIno
        (w.time + 4) w.sbi.tree.start (.found offset t)) :
      GetsRoom env w i buf pos (.ready
        { time := t + 3
          disk := withStart env (withNewExtent w.disk s (extraBlocks w i pos buf.length)) offset t
            (i.grown w.sbi.blockSize s (extraBlocks w i pos buf.length))
          start := (i.grown w.sbi.blockSize s (extraBlocks w i pos buf.length)).start
          buf := buf
          pos := pos
          extra := if i.start = 0 then 0 else s })

section Room

variable {env : Env} {w w' : World} {i : SpfsInode} {p pos : ℕ} {buf : List UInt8}

/-- The room is determined. -/
theorem GetsRoom.unique {room room' : Room} (h : GetsRoom env w i buf pos room)
    (h' : GetsRoom env w i buf pos room') : room = room' := by
  cases h with
  | enough hblocks =>
    cases h' with
    | enough => rfl
    | full hblocks' => exact absurd hblocks hblocks'
    | unrecorded hblocks' => exact absurd hblocks hblocks'
    | recorded hblocks' => exact absurd hblocks hblocks'
  | full hblocks hs =>
    cases h' with
    | enough hblocks' => exact absurd hblocks' hblocks
    | full => rfl
    | unrecorded _ hs' hne => exact absurd (hs'.symm.trans hs) hne
    | recorded _ hs' hne => exact absurd (hs'.symm.trans hs) hne
  | unrecorded hblocks hs hne ha hcode =>
    cases h' with
    | enough hblocks' => exact absurd hblocks' hblocks
    | full _ hs' => exact absurd (hs.symm.trans hs') hne
    | unrecorded _ hs' _ ha' =>
      obtain rfl := hs.symm.trans hs'
      rw [ha.unique ha']
    | recorded _ hs' _ ha' =>
      obtain rfl := hs.symm.trans hs'
      rw [ha.unique ha'] at hcode
      exact absurd rfl hcode
  | recorded hblocks hs hne ha =>
    cases h' with
    | enough hblocks' => exact absurd hblocks' hblocks
    | full _ hs' => exact absurd (hs.symm.trans hs') hne
    | unrecorded _ hs' _ ha' hcode =>
      obtain rfl := hs.symm.trans hs'
      rw [← ha.unique ha'] at hcode
      exact absurd rfl hcode
    | recorded _ hs' _ ha' =>
      obtain rfl := hs.symm.trans hs'
      cases ha.unique ha'
      rfl

/-- A new extent: its header is stored, and the buffer given back. -/
theorem spfsFileExtentAlloc_stored {blocks s : ℕ}
    (hrun : (spfsFileExtentAlloc env blocks).run w = .ok s w') :
    (spfsFreeAlloc w.sbi.freeList blocks).1 = s ∧ w'.inodes = w.inodes ∧ w'.sbi.tree = w.sbi.tree ∧
      (s ≠ 0 → Stored w w' (w.time + 4) (withNewExtent w.disk s blocks)) := by
  rw [spfsFileExtentAlloc] at hrun
  have halloc := run_freeAlloc blocks w
  obtain ⟨s', hs'⟩ : ∃ s', (spfsFreeAlloc w.sbi.freeList blocks).1 = s' := ⟨_, rfl⟩
  simp only [hs'] at halloc
  by_cases hs : s' = 0
  · rw [if_neg (not_not.mpr hs)] at halloc
    rw [EStateM.run_bind_of_ok halloc, if_neg (not_not.mpr hs)] at hrun
    cases hrun
    exact ⟨hs', rfl, rfl, fun h => absurd hs h⟩
  · rw [if_pos hs] at halloc
    rw [EStateM.run_bind_of_ok halloc, if_pos hs] at hrun
    set w₁ := (w.setFreeList (spfsFreeAlloc w.sbi.freeList blocks).2).addEvent (.alloc s' blocks)
      with hw₁
    obtain ⟨ok, w₂, hread, hrun₂⟩ := EStateM.run_bind_eq_ok.mp hrun
    cases hread
    cases hio : env.ioOk w₁.time s' with
    | false =>
      rw [hio, EStateM.run_bind_of_error (by rw [run_bugOn]; rfl)] at hrun₂
      cases hrun₂
    | true =>
      rw [hio] at hrun₂
      set w₂ := w₁.addEvent (.bread s' true)
      have hmake : (makeBuf s' 0 (spfsMakeFileExtent ⟨0, blocks % 2 ^ 32, 0⟩)).run w₂ =
          .ok (0, 16) (w₂.setBlock s' (withExtent ⟨0, blocks % 2 ^ 32, 0⟩ (w.disk s'))) := by
        rw [run_makeBuf, run_spfsMakeFileExtent _ w₂.le_bSize]
        rfl
      have hok : (bugOn ((!true) = true) : Kernel Unit).run w₂ = .ok () w₂ := by
        rw [run_bugOn]
        rfl
      rw [EStateM.run_bind_of_ok hok, EStateM.run_bind_of_ok hmake] at hrun₂
      cases hrun₂
      refine ⟨hs', rfl, rfl, fun _ => ⟨rfl, rfl, rfl, rfl, ?_⟩⟩
      have halloc' : Balanced w w₁ := (Takes.event (fun _ => rfl) _).of_log rfl rfl
      exact halloc'.trans (balanced_visit w₁ _ s [.dirty s] (fun _ => rfl) rfl)

theorem run_spfsFileExtentDataBytes (sbi : SuperBlock) {blocks : ℕ} (h : blocks ≠ 0) (w : World) :
    (spfsFileExtentDataBytes sbi blocks).run w =
      .ok ((blocks * sbi.blockSize % 2 ^ 64 + 2 ^ 64 - spfsSizeofFileExtentHeader) % 2 ^ 64) w := by
  have hok : (bugOn (blocks = 0) : Kernel Unit).run w = .ok () w := by
    rw [run_bugOn, if_neg h]
  rw [spfsFileExtentDataBytes, EStateM.run_bind_of_ok hok, EStateM.run_pure]

/-- The search for room that returns comes to the room that there is. -/
theorem spfsEnsureCapacity_room {res : ℤ} {extra : ℕ} (hp : w.inodes p = some i)
    (hrun : (spfsEnsureCapacity env p pos buf.length).run w = .ok (res, extra) w') :
    (∃ x capacity, GetsRoom env w i buf pos (.ready x) ∧ res = 0 ∧
        x = writeAt w' x.start buf pos extra ∧ Stored w w' x.time x.disk ∧
        w'.inodes p = some { i with start := x.start, capacity := capacity }) ∨
      (GetsRoom env w i buf pos (.refused res) ∧ res ≠ 0) := by
  rw [spfsEnsureCapacity, EStateM.run_bind_of_ok (run_getInode_of hp)] at hrun
  obtain ⟨sbi, w₁, hsb, hrun₁⟩ := EStateM.run_bind_eq_ok.mp hrun
  obtain ⟨rfl, rfl, -⟩ := followSb_same hsb
  have hextra : spfsCalcExtraBlocks w₁.sbi.blockSize i.capacity pos buf.length =
    extraBlocks w₁ i pos buf.length := rfl
  dsimp only at hrun₁
  rw [hextra] at hrun₁
  by_cases hblocks : extraBlocks w₁ i pos buf.length = 0
  · rw [if_pos hblocks] at hrun₁
    cases hrun₁
    exact .inl ⟨_, i.capacity, .enough hblocks, rfl, rfl, .refl w', hp⟩
  rw [if_neg hblocks] at hrun₁
  obtain ⟨s, w₂, halloc, hrun₂⟩ := EStateM.run_bind_eq_ok.mp hrun₁
  obtain ⟨hs, hinodes, htree, hstored⟩ := spfsFileExtentAlloc_stored halloc
  by_cases hne : s = 0
  · rw [if_pos hne] at hrun₂
    cases hrun₂
    exact .inr ⟨.full hblocks (hs.trans hne), by decide⟩
  rw [if_neg hne] at hrun₂
  have hstored := hstored hne
  have hp₂ : w₂.inodes p = some i := by rw [hinodes, hp]
  set start := if i.start = 0 then s else i.start
  rw [EStateM.run_bind_of_ok (run_modifyInode_of hp₂)] at hrun₂
  set w₃ := w₂.setInode p { i with start := start }
  have hp₃ : w₃.inodes p = some { i with start := start } := Function.update_self _ _ _
  rw [EStateM.run_bind_of_ok (run_spfsFileExtentDataBytes w₁.sbi hblocks w₃)] at hrun₂
  set j := i.grown w₁.sbi.blockSize s (extraBlocks w₁ i pos buf.length) with hj
  have hgrow : (modifyInode p fun i' => { i' with
      capacity := (i'.capacity + (extraBlocks w₁ i pos buf.length * w₁.sbi.blockSize % 2 ^ 64 +
        2 ^ 64 - spfsSizeofFileExtentHeader) % 2 ^ 64) % 2 ^ 32 }).run w₃ = .ok () (w₃.setInode p j) :=
    run_modifyInode_of hp₃
  rw [EStateM.run_bind_of_ok hgrow] at hrun₂
  have hp₅ : (w₃.setInode p j).inodes p = some j := Function.update_self _ _ _
  rw [EStateM.run_bind_of_ok (run_getInode_of hp₅)] at hrun₂
  obtain ⟨⟨res', cl⟩, w₆, hmodify, hrun₆⟩ := EStateM.run_bind_eq_ok.mp hrun₂
  cases hrun₆
  have hframe : SameInodes (w₃.setInode p j) w' := (within_spfsBtreeModify env _ _ _).of_ok hmodify
  obtain ⟨a, ha, rfl, hdone, hbal⟩ := spfsBtreeModify_answers hmodify
  have hdisk : (w₃.setInode p j).disk = withNewExtent w₁.disk s (extraBlocks w₁ i pos buf.length) :=
    hstored.disk
  have htime : (w₃.setInode p j).time = w₁.time + 4 := hstored.time
  have hbsize : (w₃.setInode p j).bSize = w₁.bSize := hstored.bSize
  have hroot : (w₃.setInode p j).sbi.tree.start = w₁.sbi.tree.start := congrArg (·.start) htree
  rw [hdisk, htime, hbsize, hroot, hj, i.grown_iIno] at ha
  have hsame : Balanced w₂ (w₃.setInode p j) := Takes.of_log_eq rfl
  have hbal' : Balanced w₁ w' := hstored.balanced.trans (hsame.trans hbal)
  cases hdone with
  | nothing hcode => exact .inr ⟨.unrecorded hblocks hs hne ha hcode, hcode⟩
  | clean hcb =>
    rw [spfsModifyStartCb] at hcb
    split at hcb <;> cases hcb
  | @dirty offset t closure' cur w' hcb hlogs htime' =>
    have hcur : cur = { parsedInode (env.junk (t + 1)) ((w₃.setInode p j).disk offset) with
        start := j.start, capacity := j.capacity % 2 ^ 32 } := by
      rw [spfsModifyStartCb] at hcb
      split at hcb <;> cases hcb
      rfl
    rw [hcur, hdisk] at hlogs
    have hdisk' : w'.disk = withStart env (withNewExtent w₁.disk s (extraBlocks w₁ i pos buf.length))
        offset t j := by
      rw [hlogs.disk, World.setBlock_disk, hdisk]
      rfl
    refine .inl ⟨_, j.capacity, .recorded hblocks hs hne ha, rfl, ?_, ⟨hdisk', htime', ?_, ?_, hbal'⟩, ?_⟩
    · rw [writeAt, hdisk', htime']
    · exact hlogs.bSize.trans hbsize
    · rw [hlogs.sbi]
      exact hstored.blockSize
    · rw [hframe, hp₅, hj, SpfsInode.grown]

/-! ## The whole call -/

/-- The state in which the lock of the inode `i` at `p` was just taken. -/
def lockedWorld (w : World) (p : ℕ) (i : SpfsInode) : World :=
  (w.setInode p { i with lock := true }).addEvent (.lock p)

/-- The position that a write starts at. -/
def writePos (i : SpfsInode) (ppos : ℕ) : ℕ := if ppos > i.iSize then i.iSize else ppos

theorem HeldFile.not_released (h : HeldFile p w') (hp : w.inodes p = some i) (hlock : i.lock = false) :
    ¬ Released p w w' := by
  obtain ⟨j, hj, -, -, hheld⟩ := h
  exact not_released_of_locked hp hlock hj hheld

/-- The search for room follows the pointer to the super block. -/
theorem spfsEnsureCapacity_sb {len : ℕ} {r : ℤ × ℕ} (hp : w.inodes p = some i)
    (hrun : (spfsEnsureCapacity env p pos len).run w = .ok r w') : i.iSb = .sb := by
  rw [spfsEnsureCapacity, EStateM.run_bind_of_ok (run_getInode_of hp)] at hrun
  obtain ⟨sbi, w₁, hsb, -⟩ := EStateM.run_bind_eq_ok.mp hrun
  exact (followSb_same hsb).2.2

/-- Every way that a write that took the lock can return. -/
inductive WriteEnd (env : Env) (w : World) (p : ℕ) (i : SpfsInode) (buf : List UInt8) (pos : ℕ) :
    ℤ → World → Prop
  | refused {res : ℤ} {w' : World} (hres : res ≠ 0) (hheld : HeldFile p w')
      (hroom : GetsRoom env (lockedWorld w p i) { i with lock := true } buf pos (.refused res)) :
      WriteEnd env w p i buf pos res w'
  | failed {x : WriteState} {w' : World} (hheld : HeldFile p w')
      (hroom : GetsRoom env (lockedWorld w p i) { i with lock := true } buf pos (.ready x))
      (hwalk : ¬ WalksPast env w.bSize x) : WriteEnd env w p i buf pos (- EIO) w'
  | done {x : WriteState} {w' : World} (hreleased : Released p w w')
      (hroom : GetsRoom env (lockedWorld w p i) { i with lock := true } buf pos (.ready x))
      (hwalk : WalksPast env w.bSize x) : WriteEnd env w p i buf pos 0 w'

theorem spfsWrite_ends {ppos ppos' : ℕ} {res : ℤ} (hsize : w.sbi.blockSize = w.bSize)
    (hp : w.inodes p = some i) (hmode : sIsReg i.iMode = true) (hlock : i.lock = false)
    (hbuf : buf ≠ []) (hrun : (spfsWrite env p buf ppos).run w = .ok (res, ppos') w') :
    WriteEnd env w p i buf (writePos i ppos) res w' := by
  have hlen : buf.length ≠ 0 := fun h => hbuf (List.length_eq_zero_iff.mp h)
  rw [spfsWrite, if_neg hlen, EStateM.run_bind_of_ok (run_getInode_of hp),
    if_neg (by rw [hmode]; decide),
    EStateM.run_bind_of_ok (run_mutexLockInterruptible_of hp hlock)] at hrun
  have hlocked : (w.setInode p { i with lock := true }).addEvent (.lock p) = lockedWorld w p i := rfl
  have hpos : (if ppos > i.iSize then i.iSize else ppos) = writePos i ppos := rfl
  rw [hlocked] at hrun
  dsimp only at hrun
  rw [if_neg (by decide), hpos] at hrun
  set w₁ := lockedWorld w p i
  have hp₁ : w₁.inodes p = some { i with lock := true } := Function.update_self _ _ _
  obtain ⟨⟨res₂, extra⟩, w₂, hensure, hrun₂⟩ := EStateM.run_bind_eq_ok.mp hrun
  have hheld₁ : HeldFile p w₁ := ⟨_, hp₁, hmode, spfsEnsureCapacity_sb hp₁ hensure, rfl⟩
  have hheld₂ : HeldFile p w₂ := ((within_spfsEnsureCapacity_moves env p _ _).of_ok hensure).heldFile hheld₁
  dsimp only at hrun₂
  rcases spfsEnsureCapacity_room hp₁ hensure with
    ⟨x, capacity, hroom, rfl, hx, hstored, hp₂⟩ | ⟨hroom, hres⟩
  case inr =>
    rw [if_pos hres] at hrun₂
    cases hrun₂
    exact .refused hres hheld₂ hroom
  have hsize₂ : w₂.sbi.blockSize = w₂.bSize := by
    rw [hstored.blockSize, hstored.bSize]
    exact hsize
  have hb₂ : w₂.bSize = w.bSize := hstored.bSize
  rw [if_neg (by simp), EStateM.run_bind_of_ok (run_getInode_of hp₂)] at hrun₂
  obtain ⟨r, w₃, hlit, hrun₃⟩ := EStateM.run_bind_eq_ok.mp hrun₂
  have hinodes : SameInodes w₂ w₃ := (within_spfsWriteLit env _ _ _ _ _).of_ok hlit
  have hwalks := spfsWriteLit_walks hsize₂ hbuf hlit
  dsimp only at hwalks
  rw [← hx, hb₂] at hwalks
  rcases hwalks with ⟨hwalk, ⟨rest', extra', rfl⟩, hbal⟩ | ⟨hnot, rfl⟩
  case inr =>
    have hheld₃ : HeldFile p w₃ := by
      obtain ⟨j, hj, hfile⟩ := hheld₂
      exact ⟨j, by rw [hinodes, hj], hfile⟩
    cases hrun₃
    exact .failed hheld₃ hroom hnot
  dsimp only at hrun₃
  obtain ⟨_, w₄, hbug, hrun₄⟩ := EStateM.run_bind_eq_ok.mp hrun₃
  obtain ⟨_, w₅, hbug', hrun₅⟩ := EStateM.run_bind_eq_ok.mp hrun₄
  obtain rfl : w₃ = w₄ := (within_bugOn (R := Eq) _).of_ok hbug
  obtain rfl : w₃ = w₅ := (within_bugOn (R := Eq) _).of_ok hbug'
  have hp₃ : w₃.inodes p = some { i with lock := true, start := x.start, capacity := capacity } := by
    rw [hinodes, hp₂]
  rw [EStateM.run_bind_of_ok (run_modifyInode_of hp₃)] at hrun₅
  set w₆ := w₃.setInode p { i with
    lock := true, start := x.start, capacity := capacity, iSize := ((i.iSize : ℤ) + 0).toNat } with hw₆
  have hp₆ : w₆.inodes p = some { i with
      lock := true, start := x.start, capacity := capacity, iSize := ((i.iSize : ℤ) + 0).toNat } :=
    Function.update_self _ _ _
  rw [EStateM.run_bind_of_ok (run_mutexUnlock_of hp₆)] at hrun₅
  cases hrun₅
  have hbal' : Balanced (w.addEvent (.lock p)) w₃ := by
    have hall : Balanced w₁ w₃ := hstored.balanced.trans hbal
    exact hall.of_log rfl rfl
  exact .done (.of_unlock hp hlock hbal' rfl (Function.update_self _ _ _) rfl) hroom hwalk

/-- A write that returns without the lock, since it has nothing to do or was interrupted. -/
theorem spfsWrite_early {ppos ppos' : ℕ} {res : ℤ} (hp : w.inodes p = some i)
    (hearly : buf = [] ∨ sIsReg i.iMode = false ∨ i.lock = true)
    (hrun : (spfsWrite env p buf ppos).run w = .ok (res, ppos') w') : w' = w ∧ ppos' = ppos := by
  rw [spfsWrite] at hrun
  by_cases hbuf : buf = []
  · rw [if_pos (by rw [hbuf]; rfl)] at hrun
    cases hrun
    exact ⟨rfl, rfl⟩
  have hlen : buf.length ≠ 0 := fun h => hbuf (List.length_eq_zero_iff.mp h)
  rw [if_neg hlen, EStateM.run_bind_of_ok (run_getInode_of hp)] at hrun
  cases hmode : sIsReg i.iMode with
  | false =>
    rw [if_pos (by rw [hmode]; rfl)] at hrun
    cases hrun
    exact ⟨rfl, rfl⟩
  | true =>
    have hlock : i.lock = true := by
      rcases hearly with h | h | h
      · exact absurd h hbuf
      · rw [hmode] at h
        cases h
      · exact h
    rw [if_neg (by rw [hmode]; decide), EStateM.run_bind_match,
      run_mutexLockInterruptible_held hp hlock] at hrun
    by_cases hsignal : env.signal w.time = true
    · rw [if_pos hsignal] at hrun
      cases hrun
      exact ⟨rfl, rfl⟩
    · rw [if_neg hsignal] at hrun
      cases hrun

/-- A write that returns gives back its lock and its buffers when it did not take the lock,
or when it got room and no byte went to the first block of an extent. -/
theorem spfsWrite_releases {ppos ppos' : ℕ} {res : ℤ} (hsize : w.sbi.blockSize = w.bSize)
    (hp : w.inodes p = some i) (hrun : (spfsWrite env p buf ppos).run w = .ok (res, ppos') w') :
    Released p w w' ↔ (buf = [] ∨ sIsReg i.iMode = false ∨ i.lock = true) ∨
      ∃ x, GetsRoom env (lockedWorld w p i) { i with lock := true } buf (writePos i ppos) (.ready x) ∧
        WalksPast env w.bSize x := by
  by_cases hearly : buf = [] ∨ sIsReg i.iMode = false ∨ i.lock = true
  · rw [(spfsWrite_early hp hearly hrun).1]
    exact iff_of_true (refl_of (Released p) w) (.inl hearly)
  have hheld := hearly
  rw [not_or, not_or, Bool.not_eq_false, Bool.not_eq_true] at hheld
  obtain ⟨hbuf, hmode, hlock⟩ := hheld
  have hend := spfsWrite_ends hsize hp hmode hlock hbuf hrun
  cases hend with
  | refused hres hheld hroom =>
    refine iff_of_false (hheld.not_released hp hlock) ?_
    rintro (h | ⟨x, hroom', -⟩)
    · exact hearly h
    · cases hroom.unique hroom'
  | failed hheld hroom hwalk =>
    refine iff_of_false (hheld.not_released hp hlock) ?_
    rintro (h | ⟨x, hroom', hwalk'⟩)
    · exact hearly h
    · cases hroom.unique hroom'
      exact hwalk hwalk'
  | done hreleased hroom hwalk => exact iff_of_true hreleased (.inr ⟨_, hroom, hwalk⟩)

end Room

end Spfs
