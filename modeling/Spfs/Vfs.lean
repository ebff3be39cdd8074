-- SUMMARY: The calls of a mounted file system, runs of them in any environments, and what holds over every run.
import Spfs.Vfs.Service

/-!
# Calls of the mounted file system

What the kernel calls while the file system is mounted, each call in an environment of
its own: reads fail, memory runs out, signals arrive as they like. A call that ends in a
fault leaves the state as it was at the fault, and the calls of other threads go on from
there. A relation that allows every step of every call holds over all runs.
-/

namespace Spfs

open EStateM (Within)

/-! ## Calls and runs -/

inductive VfsCall where
  | create (op : CreateOp) (parent : ℕ) (dentry : Dentry) (mode : ℕ)
  | lookup (parent : ℕ) (dentry : Dentry)
  | iterate (file : DirFile) (ctx : DirContext)
  | read (p inLen ppos : ℕ)
  | write (p : ℕ) (inBuf : List UInt8) (ppos : ℕ)
  | writeInode (p : ℕ)
  /-- the last user of an inode is gone -/
  | iput (p : ℕ)
  /-- `spfs_free_inode`: the kernel is short of memory -/
  | freeInode (p : ℕ)

/-- What a call returns, if it does. -/
inductive VfsResult where
  | created (res : ℤ) (dentry : Dentry)
  | found (dentry : Option Dentry)
  | listed (res : ℤ) (ctx : DirContext)
  | read (res : ℤ) (ppos : ℕ) (bytes : List UInt8)
  | written (res : ℤ) (ppos : ℕ)
  | done (res : ℤ)

def VfsCall.run (env : Env) : VfsCall → Kernel VfsResult
  | create op parent dentry mode => do
    let (res, dentry) ← op.run env parent dentry mode
    return .created res dentry
  | lookup parent dentry => do return .found (← spfsLookup env parent dentry)
  | iterate file ctx => do
    let (res, ctx) ← spfsIterate env file ctx
    return .listed res ctx
  | read p inLen ppos => do
    let (res, ppos, bytes) ← spfsRead env p inLen ppos
    return .read res ppos bytes
  | write p inBuf ppos => do
    let (res, ppos) ← spfsWrite env p inBuf ppos
    return .written res ppos
  | writeInode p => do return .done (← spfsWriteInode env p)
  | iput p => do
    Spfs.iput p
    return .done 0
  | freeInode p => do
    modify (·.evict p)
    return .done 0

/-- The state after the calls. -/
def runCalls (w : World) (calls : List (Env × VfsCall)) : World :=
  calls.foldl (fun w call => ((call.2.run call.1).run w).final) w

@[simp] theorem runCalls_nil (w : World) : runCalls w [] = w := rfl

@[simp] theorem runCalls_concat (w : World) (calls : List (Env × VfsCall)) (call : Env × VfsCall) :
    runCalls w (calls ++ [call]) = ((call.2.run call.1).run (runCalls w calls)).final := by
  simp [runCalls]

/-! ## Relations over runs -/

/-- The calls that have nothing to store. -/
def VfsCall.reads : VfsCall → Bool
  | lookup _ _ | iterate _ _ | read _ _ _ | iput _ | freeInode _ => true
  | create _ _ _ _ | write _ _ _ | writeInode _ => false

section Relations

variable {R : World → World → Prop}

/-- One call that reads, however it ends. -/
theorem VfsCall.within_reading [Reading R] (env : Env) {call : VfsCall} (h : call.reads = true) :
    Within R (call.run env) := by
  cases call with
  | lookup parent dentry => exact (spfsLookup_reading env parent dentry).bind fun _ => Within.pure _
  | iterate file ctx => exact (spfsIterate_reading env file ctx).bind fun _ => Within.pure _
  | read p inLen ppos => exact (spfsRead_reading env p inLen ppos).bind fun _ => Within.pure _
  | iput p => exact (iput_reading p).bind fun _ => Within.pure _
  | freeInode p => exact Within.bind (fun w => evict_reading w p) fun _ => Within.pure _
  | create | write | writeInode => cases h

/-- One call, however it ends. -/
theorem VfsCall.within [Service R] (env : Env) (call : VfsCall) : Within R (call.run env) := by
  cases call with
  | create op parent dentry mode => exact (createOp_service env op parent dentry mode).bind fun _ => Within.pure _
  | write p inBuf ppos => exact (spfsWrite_service env p inBuf ppos).bind fun _ => Within.pure _
  | writeInode p => exact (spfsWriteInode_service env p).bind fun _ => Within.pure _
  | lookup | iterate | read | iput | freeInode => exact within_reading env rfl

/-- What every call of a run stays within, the run does. -/
theorem runCalls_within [IsPreorder World R] (w : World) (calls : List (Env × VfsCall))
    (h : ∀ call ∈ calls, Within R (call.2.run call.1)) : R w (runCalls w calls) := by
  induction calls using List.reverseRecOn with
  | nil => exact refl_of R w
  | append_singleton calls call ih =>
    rw [runCalls_concat]
    have hcalls := ih fun c hc => h c (List.mem_append_left _ hc)
    exact trans_of R hcalls (h call (List.mem_append_right _ List.mem_cons_self) _)

/-- A run of calls, each in its own environment. -/
theorem runCalls_service [Service R] (w : World) (calls : List (Env × VfsCall)) : R w (runCalls w calls) :=
  runCalls_within w calls fun call _ => call.2.within call.1

/-- A run of calls that read. -/
theorem runCalls_reading [Reading R] (w : World) {calls : List (Env × VfsCall)}
    (h : ∀ call ∈ calls, call.2.reads = true) : R w (runCalls w calls) :=
  runCalls_within w calls fun call hcall => VfsCall.within_reading call.1 (h call hcall)

end Relations

/-- The device and the mounted super block are the same, no block was handed out and no
buffer is to be written. -/
structure Undisturbed (w w' : World) : Prop where
  store : SameStore w w'
  log : ∃ es, w'.log = es ++ w.log ∧ ∀ e ∈ es, e.writes = false

instance : Reading Undisturbed where
  refl w := ⟨refl_of SameStore w, [], rfl, fun _ h => absurd h List.not_mem_nil⟩
  trans := by
    rintro w w₁ w' ⟨hstore, es, hlog, hes⟩ ⟨hstore', es', hlog', hes'⟩
    refine ⟨trans_of SameStore hstore hstore', es' ++ es, by rw [hlog', hlog, List.append_assoc], fun e he => ?_⟩
    exact (List.mem_append.mp he).elim (hes' e) (hes e)
  addEvent w e he := ⟨⟨rfl, rfl, rfl⟩, [e], rfl, fun e' he' => by rwa [List.mem_singleton.mp he']⟩
  cache w _ _ := ⟨⟨rfl, rfl, rfl⟩, [], rfl, fun _ h => absurd h List.not_mem_nil⟩

end Spfs
