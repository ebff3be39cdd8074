-- SUMMARY: Which reads of an extent are exact and come to an end: those that take all that is left of the data.
import Spfs.File.Extent
import Spfs.File.Frame

/-!
# Reading an extent

The loop of `spfs_read_file_extent` ends when it has skipped or copied all the data of
the extent, and in no other way. A request that is through before goes on over the
blocks behind the extent, and so does one for an extent whose length says more than its
blocks can hold.
-/

namespace Spfs

open EStateM (Within)

section Read

variable {env : Env} {w : World} {start bhPos length : ℕ} {rest : ReadRest}

/-- What is copied from a block of which `avail` bytes are data. -/
def ReadRest.share (rest : ReadRest) (avail : ℕ) : ℕ := min rest.inLen (avail - rest.pos)

/-- What is left to read behind such a block. -/
def ReadRest.after (rest : ReadRest) (avail : ℕ) (bytes : List UInt8) : ReadRest where
  pos := rest.pos - avail
  inLen := rest.inLen - rest.share avail
  read := rest.read ++ bytes

/-- What is left of the length of the extent behind such a block. -/
def ReadRest.left (rest : ReadRest) (avail length : ℕ) : ℕ :=
  length - min rest.pos avail - rest.share avail

section Through

/-! All of a block is data, and all of the data that is left is asked for. -/

variable {avail : ℕ}

theorem ReadRest.share_through (havail : avail ≤ length) (hin : length - rest.pos ≤ rest.inLen) :
    rest.share avail = avail - rest.pos :=
  Nat.min_eq_right ((Nat.sub_le_sub_right havail _).trans hin)

theorem ReadRest.share_le_through (havail : avail ≤ length) (hin : length - rest.pos ≤ rest.inLen) :
    rest.share avail ≤ length - rest.pos := by
  rw [share_through havail hin]
  exact Nat.sub_le_sub_right havail _

theorem ReadRest.left_through (havail : avail ≤ length) (hin : length - rest.pos ≤ rest.inLen) :
    rest.left avail length = length - avail := by
  rw [ReadRest.left, share_through havail hin]
  omega

/-- The part of the data behind the block that is asked for. -/
theorem ReadRest.after_through (bytes : List UInt8) (havail : avail ≤ length)
    (hin : length - rest.pos ≤ rest.inLen) :
    length - avail - (rest.after avail bytes).pos = length - rest.pos - rest.share avail := by
  rw [share_through havail hin]
  show length - avail - (rest.pos - avail) = _
  omega

/-- What is left to skip behind all of the data. -/
theorem ReadRest.pos_through (bytes : List UInt8) (havail : avail ≤ length) :
    (rest.after avail bytes).pos - (length - avail) = rest.pos - length := by
  show rest.pos - avail - (length - avail) = _
  rw [Nat.sub_sub, Nat.add_sub_cancel' havail]

/-- What is left to read behind all of the data. -/
theorem ReadRest.rest_through (bytes : List UInt8) (havail : avail ≤ length)
    (hin : length - rest.pos ≤ rest.inLen) :
    (rest.after avail bytes).inLen - (length - rest.pos - rest.share avail) =
      rest.inLen - (length - rest.pos) := by
  show rest.inLen - rest.share avail - (length - rest.pos - rest.share avail) = _
  rw [Nat.sub_sub, Nat.add_sub_cancel' (share_le_through havail hin)]

/-- All of that is asked for as well. -/
theorem ReadRest.inLen_through (bytes : List UInt8) (havail : avail ≤ length)
    (hin : length - rest.pos ≤ rest.inLen) :
    length - avail - (rest.after avail bytes).pos ≤ (rest.after avail bytes).inLen := by
  rw [after_through bytes havail hin]
  exact Nat.sub_le_sub_right hin _

/-- Only then is all that the block leaves asked for. -/
theorem ReadRest.asked_of_left (bytes : List UInt8) (havail : avail ≤ length)
    (h : rest.left avail length - (rest.after avail bytes).pos ≤ (rest.after avail bytes).inLen) :
    length - rest.pos ≤ rest.inLen := by
  have h' : rest.left avail length - (rest.pos - avail) ≤ rest.inLen - rest.share avail := h
  unfold left share at h'
  omega

end Through

/-- One round of the loop. -/
theorem run_spfsReadFileExtentDo_step (fuel : ℕ) (h : bhPos ≤ w.bSize) :
    let avail := min (w.bSize - bhPos) length
    let rest' := rest.after avail ((w.disk start).read (bhPos + rest.pos) (rest.share avail))
    (spfsReadFileExtentDo env (fuel + 1) start bhPos length rest).run w =
      (do
        if rest.left avail length > 0 then
          if !(← sbBread env (start + 1)) then
            return (- EIO, rest')
          spfsReadFileExtentDo env fuel (start + 1) 0 (rest.left avail length) rest'
        else
          return ((rest'.read.length : ℤ), rest')).run (w.addEvent (.brelse start)) := by
  intro avail rest'
  obtain ⟨pos, inLen, read⟩ := rest
  rw [spfsReadFileExtentDo, EStateM.run_bind_of_ok (EStateM.run_get w),
    EStateM.run_bind_of_ok (run_spfsSbRemaining h w)]
  dsimp only
  have hskip : min pos (min (w.bSize - bhPos) length) = min pos avail := rfl
  rw [hskip]
  by_cases hle : pos ≤ avail
  · have hall : min pos avail = pos := Nat.min_eq_left hle
    have hcopy : min inLen (min (w.bSize - (bhPos + pos)) (length - pos)) =
        ReadRest.share ⟨pos, inLen, read⟩ avail := by
      rw [← Nat.sub_sub, Nat.sub_min_sub_right]
      rfl
    have hshare : pos - avail = 0 := Nat.sub_eq_zero_of_le hle
    rw [hall, Nat.sub_self, if_pos rfl, EStateM.run_bind_of_ok (run_spfsSbRemaining (by omega) w)]
    rw [hcopy, EStateM.run_bind_of_ok (EStateM.run_pure _ _),
      EStateM.run_bind_of_ok (run_brelse _ _)]
    simp only [ReadRest.left, ReadRest.after, rest', hall, hshare]
  · have hge : avail ≤ pos := Nat.le_of_not_le hle
    have hnone : ReadRest.share ⟨pos, inLen, read⟩ avail = 0 := by
      show min inLen (avail - pos) = 0
      rw [Nat.sub_eq_zero_of_le hge, Nat.min_zero]
    have hall : min pos avail = avail := Nat.min_eq_right hge
    have hpos : ¬ pos - min pos avail = 0 := by
      rw [hall]
      exact Nat.sub_ne_zero_of_lt (Nat.lt_of_not_le hle)
    rw [if_neg hpos, EStateM.run_bind_of_ok (EStateM.run_pure _ _),
      EStateM.run_bind_of_ok (run_brelse _ _)]
    simp only [ReadRest.left, ReadRest.after, rest', hall, hnone, Nat.sub_zero, Block.read_zero,
      List.append_nil]

/-- The state differs in the log only, and the blocks read meanwhile are among those. -/
def ReadsOnly (P : ℕ → Prop) (w w' : World) : Prop :=
  ∃ es, w' = { w with log := es ++ w.log } ∧ ∀ b ok, Event.bread b ok ∈ es → P b

instance (P : ℕ → Prop) : IsPreorder World (ReadsOnly P) where
  refl _ := ⟨[], rfl, fun _ _ h => nomatch h⟩
  trans := by
    rintro w _ _ ⟨es, rfl, hes⟩ ⟨es', rfl, hes'⟩
    refine ⟨es' ++ es, by simp, fun b ok hb => ?_⟩
    rcases List.mem_append.mp hb with hb | hb
    · exact hes' b ok hb
    · exact hes b ok hb

theorem ReadsOnly.mono {P Q : ℕ → Prop} {w' : World} (h : ReadsOnly P w w')
    (hle : ∀ b, P b → Q b) : ReadsOnly Q w w' := by
  obtain ⟨es, hw', hes⟩ := h
  exact ⟨es, hw', fun b ok hb => hle b (hes b ok hb)⟩

theorem readsOnly_brelse (P : ℕ → Prop) (w : World) (b : ℕ) :
    ReadsOnly P w (w.addEvent (.brelse b)) := by
  refine ⟨[.brelse b], rfl, fun _ _ h => ?_⟩
  simp at h

theorem readsOnly_bread {P : ℕ → Prop} (w : World) {b : ℕ} (h : P b) :
    ReadsOnly P w (w.addEvent (.bread b true)) := by
  refine ⟨[.bread b true], rfl, fun b' ok hb' => ?_⟩
  cases List.mem_singleton.mp hb'
  exact h

/-- The last block: the data ends in it, and all of it is asked for. -/
theorem run_spfsReadFileExtentDo_last (fuel : ℕ) (hlength : length + bhPos ≤ w.bSize)
    (hin : length - rest.pos ≤ rest.inLen) :
    let n := length - rest.pos
    (spfsReadFileExtentDo env (fuel + 1) start bhPos length rest).run w =
      .ok ((rest.read.length + n : ℕ), ⟨rest.pos - length, rest.inLen - n,
        rest.read ++ (Block.joined w.bSize w.disk start).read (bhPos + rest.pos) n⟩)
        (w.addEvent (.brelse start)) := by
  intro n
  have havail : min (w.bSize - bhPos) length = length := by omega
  have hshare : rest.share length = n := Nat.min_eq_right hin
  have hleft : rest.left length length = 0 := by
    rw [ReadRest.left, hshare]
    omega
  have hfits : min n (w.bSize - (bhPos + rest.pos)) = n := by omega
  have hbytes : (Block.joined w.bSize w.disk start).read (bhPos + rest.pos) n =
      (w.disk start).read (bhPos + rest.pos) n := by
    rw [Block.joined_read w.disk (Nat.lt_of_lt_of_le (by decide) w.le_bSize), hfits, Nat.sub_self,
      Block.read_zero, List.append_nil]
  rw [run_spfsReadFileExtentDo_step fuel (by omega), havail, hleft, hbytes, if_neg (by decide)]
  unfold ReadRest.after
  simp only [hshare, List.length_append, Block.length_read]
  rfl

/-- The loop ends when the data lies in its blocks and all that is left of it is asked
for. It then has copied just that. -/
theorem run_spfsReadFileExtentDo_ends (m fuel start bhPos length : ℕ) (rest : ReadRest)
    (hfuel : m ≤ fuel) (h : bhPos ≤ w.bSize)
    (hio : ∀ t b, start < b → b ≤ start + m → env.ioOk t b = true)
    (hlength : length + bhPos ≤ (m + 1) * w.bSize) (hin : length - rest.pos ≤ rest.inLen) :
    let n := length - rest.pos
    ∃ w', (spfsReadFileExtentDo env (fuel + 1) start bhPos length rest).run w =
        .ok ((rest.read.length + n : ℕ), ⟨rest.pos - length, rest.inLen - n,
          rest.read ++ (Block.joined w.bSize w.disk start).read (bhPos + rest.pos) n⟩) w' ∧
      ReadsOnly (fun b => start < b ∧ b ≤ start + m) w w' := by
  induction m generalizing fuel start bhPos length rest w with
  | zero =>
    rw [Nat.zero_add, Nat.one_mul] at hlength
    exact ⟨_, run_spfsReadFileExtentDo_last fuel hlength hin, readsOnly_brelse _ w start⟩
  | succ m ih =>
    intro n
    by_cases hlast : length + bhPos ≤ w.bSize
    · exact ⟨_, run_spfsReadFileExtentDo_last fuel hlast hin, readsOnly_brelse _ w start⟩
    -- the block is data to its end, and the rest of the data is behind it
    have hbig := w.le_bSize
    obtain ⟨fuel, rfl⟩ := Nat.exists_eq_add_of_le' (Nat.le_of_add_left_le hfuel)
    set avail := w.bSize - bhPos
    have hle : avail ≤ length := by omega
    set bytes := (w.disk start).read (bhPos + rest.pos) (rest.share avail)
    set w₁ := (w.addEvent (.brelse start)).addEvent (.bread (start + 1) true)
    have hlength' : length - avail + 0 ≤ (m + 1) * w₁.bSize := by
      have hsize : w₁.bSize = w.bSize := rfl
      rw [Nat.succ_mul] at hlength
      rw [hsize]
      omega
    obtain ⟨w', hrun, hreads⟩ := ih (w := w₁) fuel (start + 1) 0
      (length - avail) (rest.after avail bytes) (Nat.le_of_succ_le_succ hfuel) (Nat.zero_le _)
      (fun t b hb hb' => hio t b (by omega) (by omega)) hlength' (rest.inLen_through bytes hle hin)
    refine ⟨w', ?_, ?_⟩
    · have hread : (sbBread env (start + 1)).run (w.addEvent (.brelse start)) = .ok true w₁ :=
        run_sbBread_ok (hio _ _ (Nat.lt_succ_self start) (by omega))
      have hshare : min n (w.bSize - (bhPos + rest.pos)) = rest.share avail := by
        rw [rest.share_through hle hin, Nat.sub_add_eq]
        exact Nat.min_eq_right (Nat.sub_le_sub_right hle _)
      have hat : 0 + (rest.after avail bytes).pos = bhPos + rest.pos - w.bSize := by
        show 0 + (rest.pos - avail) = _
        omega
      have hcount : (rest.after avail bytes).read.length = rest.read.length + rest.share avail := by
        simp [bytes, ReadRest.after]
      have hlen : (rest.after avail bytes).inLen - (n - rest.share avail) = rest.inLen - n :=
        rest.rest_through bytes hle hin
      have hsum : rest.read.length + rest.share avail + (n - rest.share avail) = rest.read.length + n := by
        rw [Nat.add_assoc, Nat.add_sub_cancel' (rest.share_le_through hle hin)]
      rw [run_spfsReadFileExtentDo_step (fuel + 1) h, Nat.min_eq_left hle, rest.left_through hle hin,
        if_pos (by omega), EStateM.run_check_of_true hread, hrun, rest.after_through bytes hle hin, hat,
        hcount, Block.joined_read w.disk (Nat.lt_of_lt_of_le (by decide) hbig), hshare, hsum,
        rest.pos_through bytes hle, hlen,
        ← List.append_assoc]
      rfl
    · have hfirst : ReadsOnly (fun b => start < b ∧ b ≤ start + (m + 1)) w w₁ :=
        trans_of (ReadsOnly _) (readsOnly_brelse _ w start) (readsOnly_bread _ (by omega))
      exact trans_of (ReadsOnly _) hfirst (hreads.mono fun b hb => by omega)

/-- A block with more data than is asked for or than it holds leaves some. -/
theorem left_pos (h : bhPos ≤ w.bSize)
    (hmore : ¬ (length + bhPos ≤ w.bSize ∧ length - rest.pos ≤ rest.inLen)) :
    0 < rest.left (min (w.bSize - bhPos) length) length := by
  unfold ReadRest.left ReadRest.share
  omega

/-- The loop runs on behind its blocks when they do not hold the data or not all that is
left of it is asked for. -/
theorem run_spfsReadFileExtentDo_runs_on (m fuel start bhPos length : ℕ) (rest : ReadRest)
    (hfuel : m ≤ fuel) (h : bhPos ≤ w.bSize)
    (hio : ∀ t b, start < b → b ≤ start + m → env.ioOk t b = true)
    (hmore : ¬ (length + bhPos ≤ (m + 1) * w.bSize ∧ length - rest.pos ≤ rest.inLen)) :
    ∃ ok, OnlyLogsWith (.bread (start + m + 1) ok) w
      ((spfsReadFileExtentDo env (fuel + 1) start bhPos length rest).run w).final := by
  induction m generalizing fuel start bhPos length rest w with
  | zero =>
    rw [Nat.zero_add, Nat.one_mul] at hmore
    rw [run_spfsReadFileExtentDo_step fuel h, if_pos (left_pos h hmore)]
    set w₁ := w.addEvent (.brelse start)
    set ok := env.ioOk w₁.time (start + 1)
    have hread : (sbBread env (start + 1)).run w₁ = .ok ok (w₁.addEvent (.bread (start + 1) ok)) := rfl
    have hfirst : OnlyLogsWith (.bread (start + 1) ok) w (w₁.addEvent (.bread (start + 1) ok)) :=
      ⟨[.bread (start + 1) ok, .brelse start], List.mem_cons_self, rfl⟩
    refine ⟨ok, hfirst.trans_onlyLogs ?_⟩
    rw [EStateM.run_bind_of_ok hread]
    exact Within.ite (fun _ => Within.pure _) (fun _ => within_spfsReadFileExtentDo env _ _ _ _ _) _
  | succ m ih =>
    obtain ⟨fuel, rfl⟩ := Nat.exists_eq_add_of_le' (Nat.le_of_add_left_le hfuel)
    have hpos : 0 < rest.left (min (w.bSize - bhPos) length) length := by
      refine left_pos h fun hlast => hmore ⟨?_, hlast.2⟩
      rw [Nat.succ_mul]
      omega
    set avail := min (w.bSize - bhPos) length
    set rest' := rest.after avail ((w.disk start).read (bhPos + rest.pos) (rest.share avail))
    set w₁ := (w.addEvent (.brelse start)).addEvent (.bread (start + 1) true)
    have hread : (sbBread env (start + 1)).run (w.addEvent (.brelse start)) = .ok true w₁ :=
      run_sbBread_ok (hio _ _ (by omega) (by omega))
    have hmore' : ¬ (rest.left avail length + 0 ≤ (m + 1) * w₁.bSize ∧
        rest.left avail length - rest'.pos ≤ rest'.inLen) := by
      rintro ⟨hfits, hasked⟩
      have hle : avail ≤ length := Nat.min_le_right _ _
      have hin := rest.asked_of_left _ hle hasked
      have hsize : w₁.bSize = w.bSize := rfl
      rw [rest.left_through hle hin, hsize] at hfits
      refine hmore ⟨?_, hin⟩
      rw [Nat.succ_mul]
      omega
    obtain ⟨ok, hruns⟩ := ih (w := w₁) fuel (start + 1) 0 (rest.left avail length) rest' (by omega)
      (Nat.zero_le _) (fun t b hb hb' => hio t b (by omega) (by omega)) hmore'
    have hnext : start + 1 + m + 1 = start + (m + 1) + 1 := by omega
    rw [hnext] at hruns
    refine ⟨ok, .of_onlyLogs_trans ⟨[.bread (start + 1) true, .brelse start], rfl⟩ ?_⟩
    rw [run_spfsReadFileExtentDo_step (fuel + 1) h, if_pos hpos, EStateM.run_check_of_true hread]
    exact hruns

/-! ## The whole extent -/

/-- With any sufficient bound on its rounds, a read of an extent returns, reads no block
outside of it, and, when the length fits, copies what is there from the position on. -/
def ReadsExactly (env : Env) (w : World) (s : ℕ) (e : FileExtent) (pos inLen : ℕ) : Prop :=
  ∃ bound, ∀ fuel ≥ bound, ∃ res next rest w',
    (spfsReadFileExtent { env with fuel := fuel } s ⟨pos, inLen, []⟩).run w =
      .ok (res, next, rest) w' ∧
    ReadsOnly (fun b => s ≤ b ∧ b < s + e.capacity) w w' ∧
    (e.length ≤ extentRoom w e → let n := min inLen (e.length - pos)
      res = n ∧ rest.read = (extentData w s).read pos n ∧ rest.pos = pos - min pos e.length ∧
        rest.inLen = inLen - n)

theorem read_extentData (w : World) (s pos n : ℕ) :
    (extentData w s).read pos n = (Block.joined w.bSize w.disk s).read (16 + pos) n := by
  apply List.map_congr_left
  intro i _
  rw [extentData, Nat.add_assoc]

section Extent

variable {s : ℕ} {e : FileExtent}

/-- A read of an extent up to its loop. -/
theorem run_spfsReadFileExtent (hio : ∀ t, env.ioOk t s = true) (he : ExtentAt (w.disk s) e)
    (rest : ReadRest) :
    (spfsReadFileExtent env s rest).run w =
      (do
        let (res, rest) ← spfsReadFileExtentDo env env.fuel s 16 e.length rest
        return (res, e.next, rest)).run (w.addEvent (.bread s true)) := by
  have hread : (sbBread env s).run w = .ok true (w.addEvent (.bread s true)) :=
    run_sbBread_ok (hio _)
  set w₁ := w.addEvent (.bread s true)
  have he₁ : ExtentAt (w₁.disk s) e := he
  have hparse : (parseBuf s 0 spfsParseFileExtent).run w₁ = .ok (.ok e, 16) w₁ := by
    rw [run_parseBuf, he₁.run_parse w₁.le_bSize]
  rw [spfsReadFileExtent, EStateM.run_check_of_true hread, EStateM.run_bind_of_ok hparse]

/-- A read that is exact and comes to an end takes all that is left, from an extent that
can hold its data: another one reads the block behind the extent. -/
theorem ReadsExactly.takes_rest {pos inLen : ℕ} (h : ReadsExactly env w s e pos inLen)
    (hio : ∀ t b, s ≤ b → b < s + e.capacity → env.ioOk t b = true)
    (he : ExtentAt (w.disk s) e) (hc : 1 ≤ e.capacity) :
    e.length ≤ extentRoom w e ∧ e.length - pos ≤ inLen := by
  obtain ⟨m, hm⟩ := Nat.exists_eq_add_of_le' hc
  obtain ⟨bound, hbound⟩ := h
  have hroom : extentRoom w e + 16 = (m + 1) * w.bSize := by
    rw [extentRoom_add w hc, hm]
  have hhead : 16 ≤ w.bSize := le_trans (by decide) w.le_bSize
  set w₁ := w.addEvent (.bread s true)
  set env' : Env := { env with fuel := bound + m + 1 }
  by_contra hnot
  obtain ⟨res, next, rest, w', hrun, hreads, -⟩ := hbound (bound + m + 1) (by omega)
  have hmore : ¬ (e.length + 16 ≤ (m + 1) * w₁.bSize ∧ e.length - pos ≤ inLen) := by
    have hsize : w₁.bSize = w.bSize := rfl
    rw [hsize, ← hroom]
    omega
  obtain ⟨ok, hruns⟩ := @run_spfsReadFileExtentDo_runs_on env' w₁ m (bound + m) s 16
    e.length ⟨pos, inLen, []⟩ (by omega) hhead (fun t b hb hb' => hio t b (by omega) (by omega)) hmore
  rw [@run_spfsReadFileExtent env' w s e (fun t => hio t s le_rfl (by omega)) he] at hrun
  obtain ⟨⟨res', rest'⟩, w₂, hdo, hrun₂⟩ := EStateM.run_bind_eq_ok.mp hrun
  cases hrun₂
  have hfuel : env'.fuel = bound + m + 1 := rfl
  rw [hfuel] at hdo
  rw [hdo] at hruns
  obtain ⟨es, hmem, hlog⟩ := OnlyLogsWith.of_onlyLogs_trans ⟨[.bread s true], rfl⟩ hruns
  obtain ⟨es', hlog', hinside⟩ := hreads
  have hes : es = es' := by
    have hboth : es ++ w.log = es' ++ w.log := congrArg World.log (hlog.symm.trans hlog')
    exact List.append_cancel_right hboth
  have hlast := hinside _ ok (hes ▸ hmem)
  omega

theorem readsExactly_of_takes_rest {pos inLen : ℕ}
    (hio : ∀ t b, s ≤ b → b < s + e.capacity → env.ioOk t b = true)
    (he : ExtentAt (w.disk s) e) (hc : 1 ≤ e.capacity) (hfits : e.length ≤ extentRoom w e)
    (hall : e.length - pos ≤ inLen) : ReadsExactly env w s e pos inLen := by
  obtain ⟨m, hm⟩ := Nat.exists_eq_add_of_le' hc
  have hroom : extentRoom w e + 16 = (m + 1) * w.bSize := by
    rw [extentRoom_add w hc, hm]
  have hhead : 16 ≤ w.bSize := le_trans (by decide) w.le_bSize
  set w₁ := w.addEvent (.bread s true)
  refine ⟨m + 1, fun fuel hfuel => ?_⟩
  obtain ⟨fuel, rfl⟩ := Nat.exists_eq_add_of_le' (Nat.le_of_add_left_le hfuel)
  set env' : Env := { env with fuel := fuel + 1 }
  have hlength : e.length + 16 ≤ (m + 1) * w₁.bSize := by
    have hsize : w₁.bSize = w.bSize := rfl
    rw [hsize, ← hroom]
    omega
  obtain ⟨w', hdo, hreads⟩ := @run_spfsReadFileExtentDo_ends env' w₁ m fuel s 16
    e.length ⟨pos, inLen, []⟩ (by omega) hhead (fun t b hb hb' => hio t b (by omega) (by omega))
    hlength hall
  have hread := read_extentData w s pos (e.length - pos)
  have hrun : (spfsReadFileExtent env' s ⟨pos, inLen, []⟩).run w =
      .ok ((e.length - pos : ℕ), e.next, ⟨pos - e.length, inLen - (e.length - pos),
        (extentData w s).read pos (e.length - pos)⟩) w' := by
    rw [@run_spfsReadFileExtent env' w s e (fun t => hio t s le_rfl (by omega)) he,
      EStateM.run_bind_of_ok hdo, hread, List.length_nil, Nat.zero_add, List.nil_append]
    rfl
  refine ⟨_, _, _, w', hrun, ?_, fun _ => ?_⟩
  · exact trans_of (ReadsOnly _) (readsOnly_bread w (by omega)) (hreads.mono fun b hb => by omega)
  · rw [Nat.min_eq_right hall]
    refine ⟨rfl, rfl, ?_, rfl⟩
    show pos - e.length = _
    omega

/-- A read of an extent is exact and comes to an end exactly when the length in the
header fits in the extent and the request takes all that is left of the data. -/
theorem spfsReadFileExtent_exact_iff (hio : ∀ t b, s ≤ b → b < s + e.capacity → env.ioOk t b = true)
    (he : ExtentAt (w.disk s) e) (hc : 1 ≤ e.capacity) (pos inLen : ℕ) :
    ReadsExactly env w s e pos inLen ↔ e.length ≤ extentRoom w e ∧ e.length - pos ≤ inLen := by
  constructor
  · intro h
    exact h.takes_rest hio he hc
  · intro h
    exact readsExactly_of_takes_rest hio he hc h.1 h.2

end Extent

end Read

theorem spfsReadFileExtent_exact_iff_two :
    ReadsExactly (.calm 9) extentWorld 50 tenBytes 4 100 ↔
      tenBytes.length ≤ extentRoom extentWorld tenBytes ∧ tenBytes.length - 4 ≤ 100 :=
  spfsReadFileExtent_exact_iff (fun _ _ _ _ => rfl) extentAt_extentWorld (by decide) 4 100

/-- A read of three of the ten bytes does not stop in the extent. -/
theorem not_readsExactly_short : ¬ ReadsExactly (.calm 9) extentWorld 50 tenBytes 4 3 := by
  intro h
  have hrest := (h.takes_rest (fun _ _ _ _ => rfl) extentAt_extentWorld (by decide)).2
  exact absurd hrest (by decide)

end Spfs
