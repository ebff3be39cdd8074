-- SUMMARY: When a write that fails leaves the file as it was: only when it fails before it takes the lock.
import Spfs.File.WritePath

/-!
# Failed writes

A write that fails after it took the lock keeps it, and then no read of the file returns any
more. So a write leaves the file as it was only when it does not fail from there on
(`spfsWrite_failsCleanly_iff`). It fails there also when all of its steps succeed, as soon as
one byte goes to the first block of an extent.
-/

namespace Spfs

open EStateM (Avoids)

/-- What a caller gets to see of a call. -/
def seen {α : Type} : EStateM.Result Fault World α → Except Fault α
  | .ok a _ => .ok a
  | .error f _ => .error f

/-- The file is the same: its size, where its data starts and how much room there is, and all
that reads of it show. -/
structure SameFile (p : ℕ) (w w' : World) : Prop where
  size : (w'.inodes p).map (·.iSize) = (w.inodes p).map (·.iSize)
  start : (w'.inodes p).map (·.start) = (w.inodes p).map (·.start)
  capacity : (w'.inodes p).map (·.capacity) = (w.inodes p).map (·.capacity)
  content : ∀ (env : Env) (inLen pos : ℕ), (∀ t s, env.ioOk t s = true) →
    seen ((spfsRead env p inLen pos).run w') = seen ((spfsRead env p inLen pos).run w)

/-- Every step of the write succeeds: it takes the lock, gets room, records it, and finds each
extent that it needs. -/
def StepsSucceed (env : Env) (w : World) (p : ℕ) (i : SpfsInode) (buf : List UInt8) (ppos : ℕ) : Prop :=
  i.lock = false ∧ ∃ x, GetsRoom env (lockedWorld w p i) { i with lock := true } buf (writePos i ppos)
    (.ready x) ∧ Walk env w.bSize (fun _ => True) x

/-- A write that returned `res` with the position `ppos'` in the state `w'` has changed nothing
if it failed, and did not fail if all its steps succeed. -/
structure FailsCleanly (env : Env) (w : World) (p : ℕ) (i : SpfsInode) (buf : List UInt8) (ppos : ℕ)
    (res : ℤ) (ppos' : ℕ) (w' : World) : Prop where
  unchanged : res < 0 → ppos' = ppos ∧ SameFile p w w'
  succeeds : StepsSucceed env w p i buf ppos → 0 ≤ res

/-- The room leads to no failure. -/
def Room.Accepts (env : Env) (bSize : ℕ) : Room → Prop
  | .ready x => WalksPast env bSize x
  | .refused res => 0 ≤ res

section Read

variable {env : Env} {w : World} {p : ℕ} {i : SpfsInode}

theorem avoids_get : Avoids .blocked (get : Kernel World) := fun _ _ => nofun

theorem avoids_bugOn (c : Prop) [Decidable c] : Avoids .blocked (bugOn c : Kernel Unit) :=
  Avoids.ite (fun _ => Avoids.throw (by decide)) fun _ => Avoids.pure _

theorem avoids_emit (e : Event) : Avoids .blocked (emit e) := fun _ _ => nofun

theorem avoids_spfsSbRemaining (bSize pos : ℕ) :
    Avoids .blocked (spfsSbRemaining bSize pos : Kernel ℕ) :=
  (avoids_bugOn _).bind fun _ => Avoids.pure _

theorem avoids_sbBread (env : Env) (s : ℕ) : Avoids .blocked (sbBread env s) := fun _ _ => nofun

theorem avoids_parseBuf (s : ℕ) : Avoids .blocked (parseBuf s 0 spfsParseFileExtent) := by
  intro w w' hrun
  rw [run_parseBuf, run_spfsParseFileExtent w.le_bSize] at hrun
  cases hrun

theorem avoids_spfsReadFileExtentDo (env : Env) (fuel start bhPos length : ℕ) (rest : ReadRest) :
    Avoids .blocked (spfsReadFileExtentDo env fuel start bhPos length rest) := by
  induction fuel generalizing start bhPos length rest with
  | zero => exact Avoids.throw (by decide)
  | succ fuel ih =>
    unfold spfsReadFileExtentDo
    refine avoids_get.bind fun w => (avoids_spfsSbRemaining _ _).bind fun remaining => ?_
    refine Avoids.ite (fun _ => ?_) fun _ => ?_
    · refine (avoids_spfsSbRemaining _ _).bind fun remaining' => (Avoids.pure _).bind fun r => ?_
      refine (avoids_emit _).bind fun _ => Avoids.ite (fun _ => ?_) fun _ => Avoids.pure _
      exact (avoids_sbBread env _).bind fun ok => Avoids.ite (fun _ => Avoids.pure _) fun _ => ih _ _ _ _
    · refine (Avoids.pure _).bind fun r => (avoids_emit _).bind fun _ => ?_
      refine Avoids.ite (fun _ => ?_) fun _ => Avoids.pure _
      exact (avoids_sbBread env _).bind fun ok => Avoids.ite (fun _ => Avoids.pure _) fun _ => ih _ _ _ _

/-- A walk over the extents waits for no lock. -/
theorem avoids_spfsReadLit (env : Env) (fuel start inLen pos : ℕ) (read : List UInt8) :
    Avoids .blocked (spfsReadLit env fuel start inLen pos read) := by
  induction fuel generalizing start inLen pos read with
  | zero =>
    cases start with
    | zero => exact Avoids.pure _
    | succ start => exact Avoids.throw (by decide)
  | succ fuel ih =>
    cases start with
    | zero => exact Avoids.pure _
    | succ start =>
      have hextent (rest : ReadRest) : Avoids .blocked (spfsReadFileExtent env (start + 1) rest) := by
        unfold spfsReadFileExtent
        refine (avoids_sbBread env _).bind fun ok => Avoids.ite (fun _ => Avoids.pure _) fun _ => ?_
        refine (avoids_parseBuf _).bind fun r => ?_
        rcases r with ⟨_ | header, bhPos⟩
        · exact Avoids.pure _
        · exact (avoids_spfsReadFileExtentDo env _ _ _ _ _).bind fun _ => Avoids.pure _
      refine (hextent _).bind fun r => Avoids.ite (fun _ => Avoids.pure _) fun _ => ?_
      exact Avoids.ite (fun _ => ih _ _ _ _) fun _ => Avoids.pure _

/-- A read of a file whose lock is free waits for no lock. -/
theorem spfsRead_not_blocked (hp : w.inodes p = some i) (hlock : i.lock = false) (inLen pos : ℕ) :
    seen ((spfsRead env p inLen pos).run w) ≠ .error .blocked := by
  intro hseen
  obtain ⟨w', hrun⟩ : ∃ w', (spfsRead env p inLen pos).run w = .error .blocked w' := by
    cases h : (spfsRead env p inLen pos).run w with
    | ok r w' =>
      rw [h] at hseen
      cases hseen
    | error f w' =>
      rw [h] at hseen
      cases hseen
      exact ⟨w', rfl⟩
  rw [spfsRead] at hrun
  by_cases hlen : inLen = 0
  · rw [if_pos hlen] at hrun
    cases hrun
  rw [if_neg hlen, EStateM.run_bind_of_ok (run_getInode_of hp)] at hrun
  split at hrun
  · cases hrun
  rcases EStateM.run_bind_eq_error.mp hrun with hsuper | ⟨sbi, w₁, hsuper, hrun₁⟩
  · refine (avoids_bugOn _).bind (fun _ => ?_) _ _ hsuper
    unfold followSb
    split
    · exact avoids_get.bind fun _ => Avoids.pure _
    · exact Avoids.throw (by decide)
  obtain rfl := superOf_same hsuper
  rw [EStateM.run_bind_of_ok (run_mutexLock_of hp hlock)] at hrun₁
  rcases EStateM.run_bind_eq_error.mp hrun₁ with hlit | ⟨r, w₂, hlit, hrun₂⟩
  · exact avoids_spfsReadLit env _ _ _ _ _ _ _ hlit
  rcases r with res | read
  · cases hrun₂
  · obtain ⟨j, hj⟩ : ∃ j, w₂.inodes p = some j :=
      ⟨_, by rw [((within_spfsReadLit env _ _ _ _ _).of_ok hlit).inodes]; exact Function.update_self _ _ _⟩
    dsimp only at hrun₂
    rw [EStateM.run_bind_of_ok (run_mutexUnlock_of hj)] at hrun₂
    cases hrun₂

end Read

section Write

variable {env : Env} {w w' : World} {p ppos ppos' : ℕ} {i : SpfsInode} {buf : List UInt8} {res : ℤ}

theorem SameFile.refl (p : ℕ) (w : World) : SameFile p w w := ⟨rfl, rfl, rfl, fun _ _ _ _ => rfl⟩

/-- A file whose lock was taken and kept can be read no more. -/
theorem HeldFile.not_sameFile (h : HeldFile p w') (hp : w.inodes p = some i) (hlock : i.lock = false) :
    ¬ SameFile p w w' := by
  intro hsame
  have hread := hsame.content (.calm 0) 1 0 fun _ _ => rfl
  rw [run_spfsRead_held h, if_neg (by decide)] at hread
  exact spfsRead_not_blocked hp hlock 1 0 hread.symm

/-- Exactly the writes that do not fail after they took the lock fail cleanly. -/
theorem spfsWrite_failsCleanly_iff (hsize : w.sbi.blockSize = w.bSize) (hp : w.inodes p = some i)
    (hmode : sIsReg i.iMode = true)
    (hrun : (spfsWrite env p buf ppos).run w = .ok (res, ppos') w') :
    FailsCleanly env w p i buf ppos res ppos' w' ↔ buf = [] ∨ i.lock = true ∨
      ∃ room, GetsRoom env (lockedWorld w p i) { i with lock := true } buf (writePos i ppos) room ∧
        room.Accepts env w.bSize := by
  by_cases hearly : buf = [] ∨ i.lock = true
  · obtain ⟨rfl, rfl⟩ := spfsWrite_early hp (hearly.imp_right .inr) hrun
    refine iff_of_true ⟨fun _ => ⟨rfl, .refl p w'⟩, fun hsteps => ?_⟩ (or_assoc.mp (.inl hearly))
    rcases hearly with rfl | hlock
    · cases hrun
      exact le_rfl
    · exact absurd (hlock.symm.trans hsteps.1) (by decide)
  have hfree := hearly
  rw [not_or, Bool.not_eq_true] at hfree
  obtain ⟨hbuf, hlock⟩ := hfree
  have hend := spfsWrite_ends hsize hp hmode hlock hbuf hrun
  rw [← or_assoc, or_iff_right hearly]
  cases hend with
  | refused hres hheld hroom =>
    constructor
    · intro h
      refine ⟨_, hroom, not_lt.mp fun hneg => ?_⟩
      exact hheld.not_sameFile hp hlock (h.unchanged hneg).2
    · rintro ⟨room, hroom', haccepts⟩
      cases hroom.unique hroom'
      exact ⟨fun hneg => absurd haccepts (not_le.mpr hneg), fun _ => haccepts⟩
  | failed hheld hroom hwalk =>
    refine iff_of_false (fun h => ?_) ?_
    · exact hheld.not_sameFile hp hlock (h.unchanged (by decide)).2
    · rintro ⟨room, hroom', haccepts⟩
      cases hroom.unique hroom'
      exact hwalk haccepts
  | done _ hroom hwalk =>
    exact iff_of_true ⟨fun hneg => absurd hneg (lt_irrefl 0), fun _ => le_rfl⟩ ⟨_, hroom, hwalk⟩

end Write

/-! ## One byte for an empty file -/

/-- Every request of the write is granted, and it fails. -/
theorem run_spfsWrite_oneByte : ∃ w',
    (spfsWrite (.calm 9) 1 [65] 0).run oneFileWorld = .ok (- EIO, 0) w' ∧ HeldFile 1 w' := by
  have halloc : (spfsFreeAlloc oneFileWorld.sbi.freeList
      (firstBlocks oneFileWorld ([65] : List UInt8).length)).1 = 101 := by
    rw [List.length_singleton, firstBlocks_oneFileWorld]
    decide
  obtain ⟨w', hrun, hp, -⟩ := run_spfsWrite_first
    (fun _ _ => rfl : ∀ t s, (Env.calm 9).ioOk t s = true) rfl
    (show oneFileWorld.inodes 1 = some (plainFile 1) from rfl) (emptyFile_plainFile 1)
    (List.cons_ne_nil 65 []) (by decide) halloc (by decide) (storesStart_oneFileWorld _) 0
  exact ⟨w', hrun, _, hp, (emptyFile_plainFile 1).isReg, rfl, rfl⟩

theorem spfsWrite_failsCleanly_iff_oneByte : ∃ w',
    FailsCleanly (.calm 9) oneFileWorld 1 (plainFile 1) [65] 0 (- EIO) 0 w' ↔
      ([65] : List UInt8) = [] ∨ (plainFile 1).lock = true ∨
        ∃ room, GetsRoom (.calm 9) (lockedWorld oneFileWorld 1 (plainFile 1))
          { plainFile 1 with lock := true } [65] (writePos (plainFile 1) 0) room ∧
          room.Accepts (.calm 9) oneFileWorld.bSize := by
  obtain ⟨w', hrun, -⟩ := run_spfsWrite_oneByte
  exact ⟨w', spfsWrite_failsCleanly_iff rfl rfl (emptyFile_plainFile 1).isReg hrun⟩

/-- The byte is stored, and the file is out of reach. -/
theorem not_failsCleanly_oneByte : ∃ w',
    (spfsWrite (.calm 9) 1 [65] 0).run oneFileWorld = .ok (- EIO, 0) w' ∧
      ¬ FailsCleanly (.calm 9) oneFileWorld 1 (plainFile 1) [65] 0 (- EIO) 0 w' := by
  obtain ⟨w', hrun, hheld⟩ := run_spfsWrite_oneByte
  refine ⟨w', hrun, fun hclean => ?_⟩
  exact hheld.not_sameFile (i := plainFile 1) rfl rfl (hclean.unchanged (by decide)).2

end Spfs
