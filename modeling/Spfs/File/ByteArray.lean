-- SUMMARY: When a file behaves as an array of bytes over a run of reads and writes.
import Spfs.File.Write

/-!
# Files as byte arrays

`specOp` is what a file is for: an array of bytes that reads cut from and writes
overlay. A file of the system behaves like this until the first write, and with it
no more: `spfs_write` takes the number of bytes that `spfs_write_file_extent`
returns for an error, so it neither reports them nor lets the file grow.
-/

namespace Spfs

/-- A call on an open file. -/
inductive FileOp where
  | write (buf : List UInt8) (pos : ℕ)
  | read (len pos : ℕ)
deriving DecidableEq

namespace FileOp

/-- The `in_len` of the call. -/
def len : FileOp → ℕ
  | write buf _ => buf.length
  | read len _ => len

def IsRead : FileOp → Prop
  | write _ _ => False
  | read _ _ => True

end FileOp

/-- What a call shows: its result, `*ppos` after it, the bytes it delivered, and the
size of the file after it. -/
structure FileResult where
  ret : ℤ
  pos : ℕ
  data : List UInt8
  size : ℕ
deriving DecidableEq

/-! ## The abstract file -/

/-- One call on an array of bytes. -/
def specOp (f : List UInt8) : FileOp → FileResult × List UInt8
  | .write buf pos =>
    let p := min pos f.length
    let f' := f.take p ++ buf ++ f.drop (p + buf.length)
    (⟨buf.length, p + buf.length, [], f'.length⟩, f')
  | .read len pos =>
    let data := (f.drop pos).take len
    (⟨data.length, pos + data.length, data, f.length⟩, f)

def specOps : List UInt8 → List FileOp → List FileResult
  | _, [] => []
  | f, op :: ops => (specOp f op).1 :: specOps (specOp f op).2 ops

/-! ## The file of the system -/

def runFileOp (env : Env) (p : ℕ) : FileOp → Kernel FileResult
  | .write buf pos => do
    let (ret, pos) ← spfsWrite env p buf pos
    return ⟨ret, pos, [], (← getInode p).iSize⟩
  | .read len pos => do
    let (ret, pos, data) ← spfsRead env p len pos
    return ⟨ret, pos, data, (← getInode p).iSize⟩

def runFileOps (env : Env) (p : ℕ) : List FileOp → Kernel (List FileResult)
  | [] => return []
  | op :: ops => do
    let r ← runFileOp env p op
    return r :: (← runFileOps env p ops)

/-- The calls on file `p` all return, with the results of an array of bytes. -/
def BehavesAsByteArray (env : Env) (p : ℕ) (w : World) (ops : List FileOp) : Prop :=
  ∃ w', (runFileOps env p ops).run w = .ok (specOps [] ops) w'

section Runs

variable {env : Env} {p : ℕ} {w : World} {i : SpfsInode}

/-- A read of an empty file delivers nothing. -/
theorem run_spfsRead_empty (env : Env) (hp : w.inodes p = some i) (hi : EmptyFile i) (len pos : ℕ) :
    ∃ w', (spfsRead env p len pos).run w = .ok (0, pos, []) w' ∧ w'.inodes p = some i := by
  unfold spfsRead
  by_cases hlen : len = 0
  · exact ⟨w, by rw [if_pos hlen]; rfl, hp⟩
  let w₁ := (w.setInode p { i with lock := true }).addEvent (.lock p)
  have hp₁ : w₁.inodes p = some { i with lock := true } := by simp [w₁]
  have hsame : { { i with lock := true } with lock := false } = i := by
    rw [← hi.unlocked]
  refine ⟨(w₁.setInode p i).addEvent (.unlock p), ?_, by simp⟩
  rw [if_neg hlen, EStateM.run_bind_of_ok (run_getInode_of hp), if_neg (by simp [hi.isReg]),
    EStateM.run_bind_of_ok (run_superOf hi.sb w),
    EStateM.run_bind_of_ok (run_mutexLock_of hp hi.unlocked)]
  have hlit : (spfsReadLit env env.fuel i.start len pos []).run w₁ = .ok (.ok []) w₁ := by
    rw [hi.start]
    cases env.fuel <;> rfl
  rw [EStateM.run_bind_of_ok hlit]
  dsimp only
  rw [EStateM.run_bind_of_ok (run_mutexUnlock_of hp₁), hsame]
  rfl

theorem specOp_read_nil (len pos : ℕ) : specOp [] (.read len pos) = (⟨0, pos, [], 0⟩, []) := by
  simp [specOp]

/-- Reads of an empty file are those of an empty array. -/
theorem behaves_of_reads (hp : w.inodes p = some i) (hi : EmptyFile i) {ops : List FileOp}
    (h : ∀ op ∈ ops, op.IsRead) : BehavesAsByteArray env p w ops := by
  induction ops generalizing w with
  | nil => exact ⟨w, rfl⟩
  | cons op ops ih =>
    cases op with
    | write buf pos => exact absurd (h _ List.mem_cons_self) id
    | read len pos =>
      obtain ⟨w₁, hrun, hp₁⟩ := run_spfsRead_empty env hp hi len pos
      obtain ⟨w', hrest⟩ := ih hp₁ fun op hop => h op (List.mem_cons_of_mem _ hop)
      have hop : (runFileOp env p (.read len pos)).run w = .ok ⟨0, pos, [], 0⟩ w₁ := by
        rw [runFileOp, EStateM.run_bind_of_ok hrun]
        dsimp only
        rw [EStateM.run_bind_of_ok (run_getInode_of hp₁), hi.size]
        rfl
      refine ⟨w', ?_⟩
      rw [runFileOps, EStateM.run_bind_of_ok hop, EStateM.run_bind_of_ok hrest, specOps,
        specOp_read_nil]
      rfl

/-- A write never shows the size that the array has after it. -/
theorem runFileOp_write_ne (hp : w.inodes p = some i) (hi : EmptyFile i) {buf : List UInt8}
    (hbuf : 1 ≤ buf.length) (pos : ℕ) {w' : World} :
    (runFileOp env p (.write buf pos)).run w ≠ .ok (specOp [] (.write buf pos)).1 w' := by
  intro h
  obtain ⟨⟨ret, pos'⟩, w₁, hwrite, hrun₁⟩ := EStateM.run_bind_eq_ok.mp h
  have hsize := spfsWrite_sameSizes hwrite p
  rw [hp] at hsize
  obtain ⟨j, hj, hjsize⟩ : ∃ j, w₁.inodes p = some j ∧ j.iSize = i.iSize :=
    Option.map_eq_some_iff.mp hsize
  dsimp only at hrun₁
  rw [EStateM.run_bind_of_ok (run_getInode_of hj)] at hrun₁
  injection hrun₁ with hres _
  have hlen : j.iSize = buf.length := by simpa [specOp] using congrArg FileResult.size hres
  rw [hi.size] at hjsize
  omega

end Runs

/-- A file that starts empty behaves as an array of bytes exactly in the runs that
write nothing. -/
theorem spfsFile_behaves_iff {env : Env} {p : ℕ} {w : World} {i : SpfsInode}
    (hp : w.inodes p = some i) (hi : EmptyFile i) {ops : List FileOp}
    (hlen : ∀ op ∈ ops, 1 ≤ op.len) :
    BehavesAsByteArray env p w ops ↔ ∀ op ∈ ops, op.IsRead := by
  constructor
  · rintro ⟨w', hrun⟩
    induction ops generalizing w with
    | nil => exact fun _ hop => absurd hop List.not_mem_nil
    | cons op ops ih =>
      obtain ⟨r, w₁, hop, hrun₁⟩ := EStateM.run_bind_eq_ok.mp hrun
      obtain ⟨rs, w₂, hrest, hrun₂⟩ := EStateM.run_bind_eq_ok.mp hrun₁
      injection hrun₂ with hres hw'
      subst hw'
      obtain ⟨rfl, rfl⟩ := List.cons.inj hres
      cases op with
      | write buf pos =>
        exact absurd hop (runFileOp_write_ne hp hi (hlen _ List.mem_cons_self) pos)
      | read len pos =>
        obtain ⟨w₁', hread, hp₁⟩ := run_spfsRead_empty env hp hi len pos
        rw [runFileOp, EStateM.run_bind_of_ok hread] at hop
        dsimp only at hop
        rw [EStateM.run_bind_of_ok (run_getInode_of hp₁)] at hop
        injection hop with _ hw
        subst hw
        rw [specOp_read_nil] at hrest
        have hops := ih hp₁ (fun op hop => hlen op (List.mem_cons_of_mem _ hop)) hrest
        exact List.forall_mem_cons.mpr ⟨trivial, hops⟩
  · exact behaves_of_reads hp hi

theorem spfsFile_behaves_iff_oneFile :
    BehavesAsByteArray (.calm 9) 1 oneFileWorld [.read 4 0] ↔
      ∀ op ∈ [FileOp.read 4 0], op.IsRead :=
  spfsFile_behaves_iff (i := plainFile 1) rfl (emptyFile_plainFile 1)
    (by simp [FileOp.len])

/-- A write of one byte for which there is space fails, although every request that it
makes is granted. -/
theorem not_behavesAsByteArray_oneFile :
    oneFileWorld.inodes 1 = some (plainFile 1) ∧ EmptyFile (plainFile 1) ∧
      (Env.calm 9).Grants ∧ firstBlocks oneFileWorld 1 = 1 ∧
      spfsFreeAlloc oneFileWorld.sbi.freeList 1 = (101, ⟨91, [⟨10, 91⟩]⟩) ∧
      (∀ i, StoresStart (.calm 9) 1 (withFirstExtent oneFileWorld 1 i 1)) ∧
      ¬ BehavesAsByteArray (.calm 9) 1 oneFileWorld [.write [65] 0] := by
  have hp : oneFileWorld.inodes 1 = some (plainFile 1) := rfl
  refine ⟨hp, emptyFile_plainFile 1, Env.calm_grants 9, firstBlocks_oneFileWorld, by decide,
    storesStart_oneFileWorld, ?_⟩
  rintro ⟨w', hrun⟩
  obtain ⟨r, w₁, hop, hrun₁⟩ := EStateM.run_bind_eq_ok.mp hrun
  obtain ⟨rs, w₂, -, hrun₂⟩ := EStateM.run_bind_eq_ok.mp hrun₁
  injection hrun₂ with hres _
  obtain ⟨rfl, -⟩ := List.cons.inj hres
  exact runFileOp_write_ne hp (emptyFile_plainFile 1) (by decide) 0 hop

end Spfs
