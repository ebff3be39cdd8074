-- SUMMARY: Which reads of a file come to their end: those that can read every block and find no more data in an extent than they ask for.
import Spfs.Balance
import Spfs.File.ExtentRead

/-!
# Reads that come through

A read that returns has either come through all of its extents, and then it has given every
buffer back, or it has failed in one of them (`spfsReadLit_ends`). It comes through when
each extent on its way starts with a header, has no more data than the read skips and asks
for, and lies in blocks that can be read when their turn comes.
-/

namespace Spfs

open EStateM (Within)

/-- The `n` blocks from `s` on can be read one after the other from the time `t` on, each
being released before the next one is read. -/
def CanRead (env : Env) (t s n : ℕ) : Prop := ∀ j < n, env.ioOk (t + 2 * j) (s + j) = true

theorem canRead_succ {env : Env} {t s n : ℕ} :
    CanRead env t s (n + 1) ↔ env.ioOk t s = true ∧ CanRead env (t + 2) (s + 1) n := by
  constructor
  · intro h
    refine ⟨h 0 (Nat.succ_pos n), fun j hj => ?_⟩
    have hnext := h (j + 1) (Nat.succ_lt_succ hj)
    have ht : t + 2 * (j + 1) = t + 2 + 2 * j := by omega
    have hs : s + (j + 1) = s + 1 + j := by omega
    rwa [ht, hs] at hnext
  · rintro ⟨hfirst, hrest⟩ j hj
    cases j with
    | zero => exact hfirst
    | succ j =>
      have hnext := hrest j (Nat.lt_of_succ_lt_succ hj)
      have ht : t + 2 + 2 * j = t + 2 * (j + 1) := by omega
      have hs : s + 1 + j = s + (j + 1) := by omega
      rwa [ht, hs] at hnext

/-- How many blocks hold the data of an extent, with the header in front. -/
def FileExtent.span (bSize : ℕ) (e : FileExtent) : ℕ := (e.length + 15) / bSize + 1

/-- A read of `inLen` bytes from the position `pos` behind the start of the extent at `s`
comes through, when it begins at the time `t`. -/
inductive ReadsThrough (env : Env) (bSize : ℕ) (disk : ℕ → Block) : ℕ → ℕ → ℕ → ℕ → Prop
  | done {t inLen pos : ℕ} : ReadsThrough env bSize disk t 0 inLen pos
  | extent {t s inLen pos : ℕ} {e : FileExtent} (hs : s ≠ 0) (he : ExtentAt (disk s) e)
      (hlength : e.length ≤ pos + inLen) (hio : CanRead env t s (e.span bSize))
      (hnext : e.length - pos < inLen → ReadsThrough env bSize disk (t + 2 * e.span bSize) e.next
        (inLen - (e.length - pos)) (pos - e.length)) :
      ReadsThrough env bSize disk t s inLen pos

/-! ## The blocks of an extent -/

section Do

variable {env : Env} {w w' : World} {start bhPos length : ℕ} {rest rest' : ReadRest} {res : ℤ}

/-- The loop over the blocks has read `k` more blocks, taken all the data, and given every
buffer back, the first one too. -/
structure Ended (w w' : World) (start k length : ℕ) (rest rest' : ReadRest) : Prop where
  inLen : rest'.inLen = rest.inLen - (length - rest.pos)
  pos : rest'.pos = rest.pos - length
  time : w'.time = w.time + 2 * k + 1
  takes : Takes (- oneBuffer start) w w'

/-- A loop that returns has ended, or it has failed and could not have ended. -/
theorem spfsReadFileExtentDo_ends {fuel : ℕ} (h : bhPos ≤ w.bSize)
    (hrun : (spfsReadFileExtentDo env fuel start bhPos length rest).run w = .ok (res, rest') w') :
    let k := (length + bhPos - 1) / w.bSize
    0 ≤ res ∧ length ≤ rest.pos + rest.inLen ∧ CanRead env (w.time + 1) (start + 1) k ∧
        Ended w w' start k length rest rest' ∨
      res < 0 ∧ ¬ (length ≤ rest.pos + rest.inLen ∧ CanRead env (w.time + 1) (start + 1) k) := by
  induction fuel generalizing start bhPos length rest w with
  | zero => cases hrun
  | succ fuel ih =>
    intro k
    have hbig := w.le_bSize
    rw [run_spfsReadFileExtentDo_step fuel h] at hrun
    set avail := min (w.bSize - bhPos) length
    obtain ⟨bytes, hbytes⟩ : ∃ bytes, bytes = (w.disk start).read (bhPos + rest.pos) (rest.share avail) :=
      ⟨_, rfl⟩
    rw [← hbytes] at hrun
    set w₁ := w.addEvent (.brelse start) with hw₁
    have hle : avail ≤ length := Nat.min_le_right _ _
    by_cases hmore : rest.left avail length > 0
    case neg =>
      -- the data ends in this block
      rw [if_neg hmore, hw₁] at hrun
      cases hrun
      obtain ⟨hin, hask⟩ : length + bhPos ≤ w.bSize ∧ length - rest.pos ≤ rest.inLen := by
        by_contra hnot
        exact hmore (left_pos h hnot)
      have hall : avail = length := Nat.min_eq_right (Nat.le_sub_of_add_le hin)
      have hzero : k = 0 := Nat.div_eq_of_lt (by omega)
      rw [hzero]
      refine .inl ⟨Int.natCast_nonneg _, Nat.sub_le_iff_le_add'.mp hask,
        fun j hj => absurd hj (Nat.not_lt_zero j), ?_, ?_, rfl, Takes.brelse w start⟩
      · show rest.inLen - rest.share avail = _
        rw [rest.share_through hle hask, hall]
      · show rest.pos - avail = _
        rw [hall]
    rw [if_pos hmore] at hrun
    set ok := env.ioOk (w.time + 1) (start + 1) with hok
    have hread : (sbBread env (start + 1)).run w₁ = .ok ok (w₁.addEvent (.bread (start + 1) ok)) := rfl
    cases hio : ok with
    | false =>
      rw [hio] at hread
      rw [EStateM.run_check_of_false hread] at hrun
      cases hrun
      refine .inr ⟨by decide, fun ⟨hall, hcan⟩ => ?_⟩
      have hask : length - rest.pos ≤ rest.inLen := Nat.sub_le_iff_le_add'.mpr hall
      rw [rest.left_through hle hask] at hmore
      have hsome : 0 < k := Nat.div_pos (by omega) (by omega)
      have hfirst : ok = true := hcan 0 hsome
      rw [hio] at hfirst
      cases hfirst
    | true =>
      rw [hio] at hread
      rw [EStateM.run_check_of_true hread] at hrun
      set w₂ := w₁.addEvent (.bread (start + 1) true)
      have hrest := ih (Nat.zero_le _) hrun
      have hsize : w₂.bSize = w.bSize := rfl
      have htime : w₂.time = w.time + 2 := rfl
      simp only [Nat.add_zero] at hrest
      rw [hsize, htime] at hrest
      by_cases hask : length - rest.pos ≤ rest.inLen
      case neg =>
        -- more data than is asked for stays more in the next block
        rcases hrest with ⟨-, hall, -⟩ | ⟨hres, -⟩
        · exact absurd (rest.asked_of_left bytes hle (Nat.sub_le_iff_le_add'.mpr hall)) hask
        · exact .inr ⟨hres, fun h => hask (Nat.sub_le_iff_le_add'.mpr h.1)⟩
      rw [rest.left_through hle hask] at hrest hmore
      have hk : k = (length - avail - 1) / w.bSize + 1 := by
        have hsum : length + bhPos - 1 = length - avail - 1 + w.bSize := by omega
        show (length + bhPos - 1) / w.bSize = _
        rw [hsum, Nat.add_div_right _ (by omega)]
      rw [hk]
      rcases hrest with ⟨hres, -, hcan, hended⟩ | ⟨hres, hnot⟩
      · refine .inl ⟨hres, Nat.sub_le_iff_le_add'.mp hask,
          canRead_succ.mpr ⟨hok.symm.trans hio, hcan⟩, ?_, ?_, ?_, ?_⟩
        · rw [hended.inLen, rest.after_through bytes hle hask, rest.rest_through bytes hle hask]
        · rw [hended.pos, rest.pos_through bytes hle]
        · rw [hended.time, htime]
          omega
        · have hsum := ((Takes.brelse w start).trans (Takes.bread w₁ (start + 1))).trans hended.takes
          rwa [add_assoc, add_neg_cancel, add_zero] at hsum
      · have hask' := Nat.sub_le_iff_le_add'.mp (rest.inLen_through bytes hle hask)
        exact .inr ⟨hres, fun ⟨_, hcan⟩ => hnot ⟨hask', (canRead_succ.mp hcan).2⟩⟩

end Do

/-! ## The extents of a file -/

section Lit

variable {env : Env} {w w' : World} {s : ℕ}

/-- What a read has behind an extent that it came through. -/
structure PassedExtent (env : Env) (w w' : World) (s : ℕ) (e : FileExtent) (rest rest' : ReadRest) :
    Prop where
  header : ExtentAt (w.disk s) e
  length_le : e.length ≤ rest.pos + rest.inLen
  canRead : CanRead env w.time s (e.span w.bSize)
  inLen : rest'.inLen = rest.inLen - (e.length - rest.pos)
  pos : rest'.pos = rest.pos - e.length
  time : w'.time = w.time + 2 * e.span w.bSize
  balanced : Balanced w w'

/-- A read of an extent that returns has passed it, or it has failed and could not have
passed it. -/
theorem spfsReadFileExtent_ends {rest rest' : ReadRest} {res : ℤ} {next : ℕ}
    (hrun : (spfsReadFileExtent env s rest).run w = .ok (res, next, rest') w') :
    (0 ≤ res ∧ ∃ e, next = e.next ∧ PassedExtent env w w' s e rest rest') ∨
      (res < 0 ∧ ∀ e, ExtentAt (w.disk s) e →
        ¬ (e.length ≤ rest.pos + rest.inLen ∧ CanRead env w.time s (e.span w.bSize))) := by
  rw [spfsReadFileExtent] at hrun
  by_cases hio : env.ioOk w.time s = true
  case neg =>
    have hread : (sbBread env s).run w = .ok false (w.addEvent (.bread s false)) :=
      run_sbBread_failed (Bool.eq_false_iff.mpr hio)
    rw [EStateM.run_check_of_false hread] at hrun
    cases hrun
    exact .inr ⟨by decide, fun e _ hcan => hio (canRead_succ.mp hcan.2).1⟩
  have hread : (sbBread env s).run w = .ok true (w.addEvent (.bread s true)) :=
    run_sbBread_ok hio
  rw [EStateM.run_check_of_true hread] at hrun
  set w₁ := w.addEvent (.bread s true) with hw₁
  by_cases hmagic : extentMagic (w.disk s) = spookyFsFileBlockMagic
  case neg =>
    have hparse : (parseBuf s 0 spfsParseFileExtent).run w₁ = .ok (.error (-EINVAL), 16) w₁ := by
      rw [run_parseBuf, run_spfsParseFileExtent w₁.le_bSize, hw₁, World.addEvent_disk, if_neg hmagic]
    rw [EStateM.run_bind_of_ok hparse, hw₁] at hrun
    cases hrun
    exact .inr ⟨by decide, fun e he => absurd he.magic hmagic⟩
  obtain ⟨e, he⟩ : ∃ e, ExtentAt (w.disk s) e := ⟨_, hmagic, rfl⟩
  have he₁ : ExtentAt (w₁.disk s) e := he
  have hparse : (parseBuf s 0 spfsParseFileExtent).run w₁ = .ok (.ok e, 16) w₁ := by
    rw [run_parseBuf, he₁.run_parse w₁.le_bSize]
  rw [EStateM.run_bind_of_ok hparse] at hrun
  obtain ⟨⟨res₂, rest₂⟩, w₂, hdo, hrun₂⟩ := EStateM.run_bind_eq_ok.mp hrun
  cases hrun₂
  have hbig := w.le_bSize
  have hends := spfsReadFileExtentDo_ends (show 16 ≤ w₁.bSize by rw [hw₁, World.addEvent_bSize]; omega) hdo
  have hspan : (e.length + 16 - 1) / w₁.bSize + 1 = e.span w.bSize := rfl
  have hcan : CanRead env w.time s (e.span w.bSize) ↔
      CanRead env (w₁.time + 1) (s + 1) ((e.length + 16 - 1) / w₁.bSize) := by
    rw [← hspan, canRead_succ]
    exact and_iff_right hio
  rcases hends with ⟨hres, hle, hblocks, hended⟩ | ⟨hres, hnot⟩
  · refine .inl ⟨hres, e, rfl, he, hle, hcan.mpr hblocks, hended.inLen, hended.pos, ?_, ?_⟩
    · rw [hended.time, ← hspan, hw₁, World.addEvent_time]
      omega
    · have hsum := (Takes.bread w s).trans hended.takes
      rwa [add_neg_cancel] at hsum
  · refine .inr ⟨hres, fun e' he' => ?_⟩
    obtain rfl : e = e' := he.eq.symm.trans he'.eq
    rwa [hcan]

/-- A read over the extents that returns has come through and is balanced, or it has failed
and does not come through. -/
theorem spfsReadLit_ends {fuel start inLen pos : ℕ} {read : List UInt8} {r : Except ℤ (List UInt8)}
    (hrun : (spfsReadLit env fuel start inLen pos read).run w = .ok r w') :
    (∃ read', r = .ok read' ∧ ReadsThrough env w.bSize w.disk w.time start inLen pos ∧
        Balanced w w') ∨
      (∃ res, r = .error res ∧ ¬ ReadsThrough env w.bSize w.disk w.time start inLen pos) := by
  induction fuel generalizing start inLen pos read w with
  | zero =>
    cases start with
    | zero =>
      cases hrun
      exact .inl ⟨_, rfl, .done, refl_of Balanced _⟩
    | succ start => cases hrun
  | succ fuel ih =>
    by_cases hs : start = 0
    · subst hs
      cases hrun
      exact .inl ⟨_, rfl, .done, refl_of Balanced _⟩
    rw [spfsReadLit] at hrun
    case x_5 => exact hs
    obtain ⟨⟨res, next, rest⟩, w₁, hextent, hrun₁⟩ := EStateM.run_bind_eq_ok.mp hrun
    have hlogs := (within_spfsReadFileExtent env start _).of_ok hextent
    dsimp only at hrun₁
    rcases spfsReadFileExtent_ends hextent with ⟨hres, e, rfl, hpassed⟩ | ⟨hres, hnot⟩
    case inr =>
      rw [if_pos hres] at hrun₁
      cases hrun₁
      refine .inr ⟨res, rfl, fun hthrough => ?_⟩
      cases hthrough with
      | done => exact hs rfl
      | extent _ he hle hcan => exact hnot _ he ⟨hle, hcan⟩
    rw [if_neg (by omega)] at hrun₁
    have hinLen : rest.inLen = inLen - (e.length - pos) := hpassed.inLen
    by_cases hmore : rest.inLen > 0
    · rw [if_pos hmore] at hrun₁
      have hrest := ih hrun₁
      rw [hlogs.bSize, hlogs.disk, hpassed.time, hinLen, hpassed.pos] at hrest
      rcases hrest with ⟨read', rfl, hthrough, hbal⟩ | ⟨res', rfl, hnot⟩
      · exact .inl ⟨read', rfl, .extent hs hpassed.header hpassed.length_le hpassed.canRead
          fun _ => hthrough, hpassed.balanced.trans hbal⟩
      · refine .inr ⟨res', rfl, fun hthrough => ?_⟩
        cases hthrough with
        | done => exact hs rfl
        | @extent _ _ _ _ e' _ he _ _ hnext =>
          obtain rfl : e = e' := hpassed.header.eq.symm.trans he.eq
          exact hnot (hnext (by omega))
    · rw [if_neg hmore] at hrun₁
      cases hrun₁
      exact .inl ⟨_, rfl, .extent hs hpassed.header hpassed.length_le hpassed.canRead
        fun h => absurd h (by omega), hpassed.balanced⟩

/-- A read that returns gives back its lock and its buffers when it has nothing to do or
comes through, and keeps the lock otherwise. -/
theorem spfsRead_releases {p inLen ppos : ℕ} {i : SpfsInode} {r : ℤ × ℕ × List UInt8}
    (hp : w.inodes p = some i) (hrun : (spfsRead env p inLen ppos).run w = .ok r w') :
    Released p w w' ↔ inLen = 0 ∨ sIsReg i.iMode = false ∨
      ReadsThrough env w.bSize w.disk (w.time + 1) i.start inLen ppos := by
  rw [spfsRead] at hrun
  by_cases hlen : inLen = 0
  · rw [if_pos hlen] at hrun
    cases hrun
    exact iff_of_true (refl_of (Released p) w) (.inl hlen)
  rw [if_neg hlen, EStateM.run_bind_of_ok (run_getInode_of hp)] at hrun
  cases hmode : sIsReg i.iMode with
  | false =>
    rw [if_pos (by rw [hmode]; rfl)] at hrun
    cases hrun
    exact iff_of_true (refl_of (Released p) w) (.inr (.inl rfl))
  | true =>
    rw [if_neg (by rw [hmode]; decide)] at hrun
    obtain ⟨sbi, w₁, hsuper, hrun₁⟩ := EStateM.run_bind_eq_ok.mp hrun
    obtain rfl : w₁ = w := superOf_same hsuper
    cases hlock : i.lock with
    | true =>
      rw [EStateM.run_bind_of_error (run_mutexLock_held hp hlock)] at hrun₁
      cases hrun₁
    | false =>
      rw [EStateM.run_bind_of_ok (run_mutexLock_of hp hlock)] at hrun₁
      set w₂ := (w₁.setInode p { i with lock := true }).addEvent (.lock p)
      have hp₂ : w₂.inodes p = some { i with lock := true } := Function.update_self _ _ _
      obtain ⟨r', w₃, hlit, hrun₃⟩ := EStateM.run_bind_eq_ok.mp hrun₁
      have hp₃ : w₃.inodes p = some { i with lock := true } := by
        rw [((within_spfsReadLit env _ _ _ _ _).of_ok hlit).inodes, hp₂]
      rcases spfsReadLit_ends hlit with ⟨read, rfl, hthrough, hbal⟩ | ⟨res, rfl, hnot⟩
      · dsimp only at hrun₃
        rw [EStateM.run_bind_of_ok (run_mutexUnlock_of hp₃)] at hrun₃
        cases hrun₃
        have hbal' : Balanced (w₁.addEvent (.lock p)) w₃ := Takes.of_log hbal rfl rfl
        exact iff_of_true (.of_unlock hp hlock hbal' rfl (Function.update_self _ _ _) rfl)
          (.inr (.inr hthrough))
      · cases hrun₃
        refine iff_of_false (not_released_of_locked hp hlock hp₃ rfl) ?_
        rintro (h | h | hthrough)
        · exact hlen h
        · cases h
        · exact hnot hthrough

end Lit

end Spfs
