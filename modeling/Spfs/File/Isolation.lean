-- SUMMARY: Two runs of calls on two files that differ in the bytes written to one of them, and what they read from the other.
import Spfs.File.ByteArray

/-!
# Isolation of files

A call on one file does not change the inode of another. Of its own file it shows
nothing after the first write: that write never gives the lock back, so no later read
returns. The reads of a file are therefore the same in two runs that differ in the bytes
written to another one. The proof is an unwinding: `Alike` relates the states of the two
runs, each pair of calls keeps it and shows the same.
-/

namespace Spfs

open EStateM (Within Keeps)

/-! ## The first write keeps the lock -/

/-- A regular file whose lock is held. -/
def HeldFile (p : ℕ) (w : World) : Prop :=
  ∃ i, w.inodes p = some i ∧ sIsReg i.iMode = true ∧ i.iSb = .sb ∧ i.lock = true

theorem MovesData.heldFile {p : ℕ} {w w' : World} (h : MovesData p w w') :
    Keeps (HeldFile p) w w' := by
  rintro ⟨i, hi, hheld⟩
  obtain ⟨start, capacity, hi'⟩ := h.kept i hi
  exact ⟨_, hi', hheld⟩

section Write

variable {env : Env} {w w' : World}

/-- The only way to fail in the blocks behind the first one is not to be able to read one. -/
theorem spfsWriteFileExtentBlocks_error {n it : ℕ} {e : ExtentWrite} {res : ℤ}
    (h : (spfsWriteFileExtentBlocks env n it e).run w = .ok (.error res) w') : res = - EIO := by
  induction n generalizing it e w with
  | zero => cases h
  | succ n ih =>
    unfold spfsWriteFileExtentBlocks at h
    split at h
    · cases h
    obtain ⟨w₁, w₂, -, hrun₁⟩ := EStateM.run_bind_eq_ok.mp h
    split at hrun₁
    · obtain ⟨ok, w₃, -, hrun₂⟩ := EStateM.run_bind_eq_ok.mp hrun₁
      split at hrun₂
      · cases hrun₂
        rfl
      obtain ⟨⟨con, rest⟩, w₄, -, hrun₃⟩ := EStateM.run_bind_eq_ok.mp hrun₂
      dsimp only at hrun₃
      split at hrun₃
      · obtain ⟨_, w₅, -, hrun₄⟩ := EStateM.run_bind_eq_ok.mp hrun₃
        obtain ⟨_, w₆, -, hrun₅⟩ := EStateM.run_bind_eq_ok.mp hrun₄
        exact ih hrun₅
      · obtain ⟨_, w₅, -, hrun₄⟩ := EStateM.run_bind_eq_ok.mp hrun₃
        exact ih hrun₄
    · obtain ⟨w₃, w₄, -, hrun₂⟩ := EStateM.run_bind_eq_ok.mp hrun₁
      obtain ⟨_, w₅, -, hrun₃⟩ := EStateM.run_bind_eq_ok.mp hrun₂
      exact ih hrun₃

/-- An extent that bytes are to be stored in from its start never results in 0. -/
theorem spfsWriteFileExtent_ne_zero {start extra extra' : ℕ} {buf : List UInt8} {res : ℤ}
    {header : FileExtent} {rest : WriteRest} (hbuf : buf ≠ [])
    (h : (spfsWriteFileExtent env start ⟨buf, 0⟩ extra).run w = .ok (res, header, rest, extra') w') :
    res ≠ 0 := by
  unfold spfsWriteFileExtent at h
  obtain ⟨ok, w₁, hread, hrun₁⟩ := EStateM.run_bind_eq_ok.mp h
  split at hrun₁
  · cases hrun₁
    decide
  have hparse : (parseBuf start 0 spfsParseFileExtent).run w₁ =
      .ok (if extentMagic (w₁.disk start) = spookyFsFileBlockMagic then
        .ok (parsedExtent (w₁.disk start)) else .error (-EINVAL), 16) w₁ := by
    rw [run_parseBuf, run_spfsParseFileExtent w₁.le_bSize]
  rw [EStateM.run_bind_of_ok hparse] at hrun₁
  by_cases hmagic : extentMagic (w₁.disk start) = spookyFsFileBlockMagic
  · rw [if_pos hmagic] at hrun₁
    dsimp only at hrun₁
    have hin : 16 ≤ w₁.bSize := le_trans (by omega) w₁.le_bSize
    rw [EStateM.run_bind_of_ok (run_spfsDoWrite hin buf 0)] at hrun₁
    have hsome : min buf.length (w₁.bSize - (16 + 0)) ≠ 0 := by
      have := List.length_pos_iff.mpr hbuf
      have := w₁.le_bSize
      omega
    obtain ⟨r, w₂, hblocks, hrun₂⟩ := EStateM.run_bind_eq_ok.mp hrun₁
    cases r with
    | error res' =>
      cases hrun₂
      rw [spfsWriteFileExtentBlocks_error hblocks]
      decide
    | ok e =>
      dsimp only at hrun₂
      split at hrun₂
      · obtain ⟨⟨_, _⟩, w₃, -, hrun₃⟩ := EStateM.run_bind_eq_ok.mp hrun₂
        obtain ⟨_, w₄, -, hrun₄⟩ := EStateM.run_bind_eq_ok.mp hrun₃
        obtain ⟨_, w₅, -, hrun₅⟩ := EStateM.run_bind_eq_ok.mp hrun₄
        obtain ⟨_, w₆, -, hrun₆⟩ := EStateM.run_bind_eq_ok.mp hrun₅
        cases hrun₆
        omega
      · obtain ⟨_, w₃, -, hrun₃⟩ := EStateM.run_bind_eq_ok.mp hrun₂
        cases hrun₃
        omega
  · rw [if_neg hmagic] at hrun₁
    cases hrun₁
    decide

/-- The chain is left with bytes to store, or with an error. -/
theorem spfsWriteLit_rest {fuel start extra extra' : ℕ} {buf : List UInt8} {written written' : ℤ}
    {rest : WriteRest} (hbuf : buf ≠ [])
    (h : (spfsWriteLit env fuel start ⟨buf, 0⟩ extra written).run w =
      .ok (.ok (written', rest, extra')) w') : rest.buf ≠ [] := by
  cases start with
  | zero =>
    have hend : (spfsWriteLit env fuel 0 ⟨buf, 0⟩ extra written).run w =
        .ok (.ok (written, ⟨buf, 0⟩, extra)) w := by
      cases fuel <;> rfl
    rw [hend] at h
    cases h
    exact hbuf
  | succ start =>
    cases fuel with
    | zero => cases h
    | succ fuel =>
      unfold spfsWriteLit at h
      obtain ⟨⟨res, header, rest₁, extra₁⟩, w₁, hwrite, hrun₁⟩ := EStateM.run_bind_eq_ok.mp h
      dsimp only at hrun₁
      rw [if_pos (spfsWriteFileExtent_ne_zero hbuf hwrite)] at hrun₁
      cases hrun₁

/-- A write of any bytes to an empty file ends with the lock held, whether it returns
or not. -/
theorem spfsWrite_held {p : ℕ} {i : SpfsInode} (hp : w.inodes p = some i) (hi : EmptyFile i)
    {buf : List UInt8} (hbuf : buf ≠ []) (pos : ℕ) :
    HeldFile p ((spfsWrite env p buf pos).run w).final := by
  have hlen : buf.length ≠ 0 := fun h => hbuf (List.length_eq_zero_iff.mp h)
  set w₁ := (w.setInode p { i with lock := true }).addEvent (.lock p)
  have hheld : HeldFile p w₁ := ⟨{ i with lock := true }, Function.update_self _ _ _, hi.isReg, hi.sb,
    rfl⟩
  have hclamp : (if pos > i.iSize then i.iSize else pos) = 0 := by
    rw [hi.size]
    split <;> omega
  rw [spfsWrite, if_neg hlen, EStateM.run_bind_of_ok (run_getInode_of hp),
    if_neg (by simp [hi.isReg]),
    EStateM.run_bind_of_ok (run_mutexLockInterruptible_of hp hi.unlocked)]
  dsimp only
  rw [if_neg Bool.false_ne_true, hclamp]
  have hensure := (within_spfsEnsureCapacity_moves env p 0 buf.length) w₁
  cases hrun : (spfsEnsureCapacity env p 0 buf.length).run w₁ with
  | error f w₂ =>
    rw [EStateM.run_bind_of_error hrun]
    rw [hrun] at hensure
    exact hensure.heldFile hheld
  | ok r w₂ =>
    obtain ⟨res, extra⟩ := r
    rw [EStateM.run_bind_of_ok hrun]
    rw [hrun] at hensure
    have hheld₂ : HeldFile p w₂ := hensure.heldFile hheld
    dsimp only
    split
    · exact hheld₂
    obtain ⟨i₂, hp₂, -⟩ := id hheld₂
    rw [EStateM.run_bind_of_ok (run_getInode_of hp₂)]
    have hsame : Within SameInodes (spfsWriteLit env env.fuel i₂.start ⟨buf, 0⟩ extra 0) :=
      within_spfsWriteLit env _ _ _ _ _
    have hlit := hsame w₂
    cases hrun' : (spfsWriteLit env env.fuel i₂.start ⟨buf, 0⟩ extra 0).run w₂ with
    | error f w₃ =>
      rw [EStateM.run_bind_of_error hrun']
      rw [hrun'] at hlit
      exact (hlit.movesData p).heldFile hheld₂
    | ok r w₃ =>
      rw [EStateM.run_bind_of_ok hrun']
      rw [hrun'] at hlit
      have hheld₃ : HeldFile p w₃ := (hlit.movesData p).heldFile hheld₂
      cases r with
      | error res' => exact hheld₃
      | ok r' =>
        -- the bytes are not used up, so the call does not get to the unlocking
        obtain ⟨written, rest, extra'⟩ := r'
        have hrest := spfsWriteLit_rest hbuf hrun'
        dsimp only
        by_cases hextra : extra' ≠ 0
        · rw [EStateM.run_bind_of_error (by rw [run_bugOn, if_pos hextra])]
          exact hheld₃
        · rw [EStateM.run_bind_of_ok (by rw [run_bugOn, if_neg hextra]),
            EStateM.run_bind_of_error (by rw [run_bugOn, if_pos hrest])]
          exact hheld₃

end Write

/-! ## Two runs -/

/-- A call on one of the files. -/
structure FileCall where
  file : ℕ
  op : FileOp

/-- The two calls differ at most in the bytes they write. -/
def FileOp.SameShape : FileOp → FileOp → Prop
  | .write buf pos, .write buf' pos' => buf.length = buf'.length ∧ pos = pos'
  | .read len pos, .read len' pos' => len = len' ∧ pos = pos'
  | _, _ => False

/-- The two sequences differ at most in the bytes they write to the file `a`. -/
def DifferOnlyIn (a : ℕ) : List FileCall → List FileCall → Prop :=
  List.Forall₂ fun c c' => c.file = c'.file ∧ c.op.SameShape c'.op ∧ (c.file ≠ a → c.op = c'.op)

/-- The result of a call that returns. -/
def returned {α : Type} : EStateM.Result Fault World α → Option α
  | .ok r _ => some r
  | .error _ _ => none

/-- What the reads of the file `b` show in a run of the calls: for each of them its
result, `*ppos` and the bytes, or `none` when it does not return. A call that does not
return is left behind in the state it got to, and the next one is made. -/
def readsOf (env : Env) (b : ℕ) : List FileCall → World → List (Option (ℤ × ℕ × List UInt8))
  | [], _ => []
  | ⟨p, .write buf pos⟩ :: calls, w => readsOf env b calls ((spfsWrite env p buf pos).run w).final
  | ⟨p, .read len pos⟩ :: calls, w =>
    let r := (spfsRead env p len pos).run w
    let rest := readsOf env b calls r.final
    if p = b then returned r :: rest else rest

/-- The states of the two runs as far as the file `b` goes. -/
inductive Alike (b : ℕ) (w w' : World) : Prop where
  | empty {i : SpfsInode} : w.inodes b = some i → w'.inodes b = some i → EmptyFile i → Alike b w w'
  | held : HeldFile b w → HeldFile b w' → Alike b w w'

section Unwinding

variable {env : Env} {a b : ℕ} {w w' : World}

/-- Steps that stay away from a file keep the states alike. -/
theorem Alike.of_onlyInode {p : ℕ} {w₁ w₁' : World} (h : Alike b w w') (hpb : b ≠ p)
    (hw : OnlyInode p w w₁) (hw' : OnlyInode p w' w₁') : Alike b w₁ w₁' := by
  cases h with
  | empty hb hb' hi => exact .empty ((hw b hpb).trans hb) ((hw' b hpb).trans hb') hi
  | held h h' =>
    obtain ⟨i, hi, hheld⟩ := h
    obtain ⟨i', hi', hheld'⟩ := h'
    exact .held ⟨i, (hw b hpb).trans hi, hheld⟩ ⟨i', (hw' b hpb).trans hi', hheld'⟩

/-- A read of a file whose lock is held returns only when nothing is asked for. -/
theorem run_spfsRead_held (h : HeldFile b w) (len pos : ℕ) :
    (spfsRead env b len pos).run w =
      if len = 0 then .ok (0, pos, []) w else .error .blocked w := by
  obtain ⟨i, hi, hreg, hsb, hlock⟩ := h
  rw [spfsRead]
  by_cases hlen : len = 0
  · rw [if_pos hlen, if_pos hlen]
    rfl
  · rw [if_neg hlen, if_neg hlen, EStateM.run_bind_of_ok (run_getInode_of hi),
      if_neg (by simp [hreg]), EStateM.run_bind_of_ok (run_superOf hsb w),
      EStateM.run_bind_of_error (run_mutexLock_held hi hlock)]

/-- A write to the file, the same in both runs, keeps the states alike. -/
theorem Alike.write (h : Alike b w w') (buf : List UInt8) (pos : ℕ) :
    Alike b ((spfsWrite env b buf pos).run w).final ((spfsWrite env b buf pos).run w').final := by
  cases h with
  | empty hb hb' hi =>
    by_cases hbuf : buf = []
    · subst hbuf
      exact .empty hb hb' hi
    · exact .held (spfsWrite_held hb hi hbuf pos) (spfsWrite_held hb' hi hbuf pos)
  | held h h' =>
    obtain ⟨i, hi, hreg, -, hlock⟩ := id h
    obtain ⟨i', hi', hreg', -, hlock'⟩ := id h'
    rw [run_spfsWrite_held hi hreg hlock, run_spfsWrite_held hi' hreg' hlock']
    exact .held h h'

/-- A read of the file shows the same in both runs and keeps the states alike. -/
theorem Alike.read (env : Env) (h : Alike b w w') (len pos : ℕ) :
    returned ((spfsRead env b len pos).run w) = returned ((spfsRead env b len pos).run w') ∧
      Alike b ((spfsRead env b len pos).run w).final ((spfsRead env b len pos).run w').final := by
  cases h with
  | empty hb hb' hi =>
    obtain ⟨w₁, hrun, hb₁⟩ := run_spfsRead_empty env hb hi len pos
    obtain ⟨w₁', hrun', hb₁'⟩ := run_spfsRead_empty env hb' hi len pos
    rw [hrun, hrun']
    exact ⟨rfl, .empty hb₁ hb₁' hi⟩
  | held h h' =>
    rw [run_spfsRead_held h, run_spfsRead_held h']
    split
    · exact ⟨rfl, .held h h'⟩
    · exact ⟨rfl, .held h h'⟩

/-- The reads of a file show the same in runs from states that are alike. -/
theorem Alike.readsOf_eq (hab : a ≠ b) {calls calls' : List FileCall}
    (hcalls : DifferOnlyIn a calls calls') (h : Alike b w w') :
    readsOf env b calls w = readsOf env b calls' w' := by
  induction hcalls generalizing w w' with
  | nil => rfl
  | @cons c c' calls calls' hc _ ih =>
    obtain ⟨p, op⟩ := c
    obtain ⟨p', op'⟩ := c'
    obtain ⟨rfl, hshape, hsame⟩ := hc
    by_cases hpb : p = b
    · subst hpb
      obtain rfl : op = op' := hsame (Ne.symm hab)
      cases op with
      | write buf pos => exact ih (h.write buf pos)
      | read len pos =>
        obtain ⟨hshow, hnext⟩ := h.read env len pos
        simp only [readsOf, if_true]
        rw [hshow, ih hnext]
    · have hbp : b ≠ p := fun heq => hpb heq.symm
      cases op with
      | write buf pos =>
        cases op' with
        | read => exact hshape.elim
        | write buf' pos' =>
          exact ih (h.of_onlyInode hbp (within_spfsWrite env p buf pos w)
            (within_spfsWrite env p buf' pos' w'))
      | read len pos =>
        cases op' with
        | write => exact hshape.elim
        | read len' pos' =>
          simp only [readsOf, if_neg hpb]
          exact ih (h.of_onlyInode hbp (within_spfsRead env p len pos w)
            (within_spfsRead env p len' pos' w'))

end Unwinding

end Spfs
