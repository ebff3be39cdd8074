-- SUMMARY: Traversals of directories whose ids resolve: the callback is run on each listed id in turn.
import Spfs.Dir.Listing

/-!
# Visits of ids that resolve

A lookup may load an inode, count a reference and move the clock, so an id resolves in a
set of states that lookups do not leave (`Resolves`). Over such a set a traversal is a fold
of the callback over the listed ids (`run_spfsForAllChildren_of_resolves`).
-/

namespace Spfs

/-- The lookup of each id succeeds in each state of `G` and stays in `G`, and so do the lock
of the directory `p` and the log. -/
structure Resolves (env : Env) (p : ℕ) (ids : List ℕ) (G : World → Prop) : Prop where
  log : ∀ w e, G w → G (w.addEvent e)
  lock : ∀ w i b, G w → w.inodes p = some i → G (w.setInode p { i with lock := b })
  lookup : ∀ w id, G w → id ∈ ids → ∃ w', (spfsInodeById env id).run w = .ok (.ok (some id)) w' ∧ G w'

/-- Run a step on each id until it says to stop. -/
def foldIds {γ : Type} (step : γ → ℕ → γ × Bool) : List ℕ → γ → γ × Bool
  | [], closure => (closure, true)
  | id :: ids, closure =>
    let (closure, more) := step closure id
    if !more then (closure, false) else foldIds step ids closure

theorem foldIds_append {γ : Type} (step : γ → ℕ → γ × Bool) (ids ids' : List ℕ) (closure : γ) :
    foldIds step (ids ++ ids') closure =
      if !(foldIds step ids closure).2 then ((foldIds step ids closure).1, false)
      else foldIds step ids' (foldIds step ids closure).1 := by
  induction ids generalizing closure with
  | nil => rfl
  | cons id ids ih =>
    rw [List.cons_append, foldIds, foldIds]
    cases hstep : (step closure id).2 with
    | false => simp [hstep]
    | true =>
      simp only [hstep]
      exact ih _

/-- The directory object is the same but for its references. -/
def KeepsDir (p : ℕ) (w w' : World) : Prop :=
  ∀ i, w.inodes p = some i → ∃ n, w'.inodes p = some { i with iCount := n }

instance (p : ℕ) : IsPreorder World (KeepsDir p) where
  refl _ i hi := ⟨i.iCount, hi⟩
  trans _ _ _ h h' i hi := by
    obtain ⟨n, hn⟩ := h i hi
    obtain ⟨m, hm⟩ := h' _ hn
    exact ⟨m, hm⟩

section Lookups

variable {env : Env} {p id : ℕ} {w w' : World}

/-- A lookup that returns leaves an object that was in the cache as it was, but for a
reference. -/
theorem spfsInodeById_keepsDir {r : Except ℤ (Option ℕ)}
    (h : (spfsInodeById env id).run w = .ok r w') : KeepsDir p w w' := by
  intro i hi
  by_cases hne : p = id
  · subst hne
    rw [spfsInodeById] at h
    obtain ⟨obj, w₁, hget, hrun⟩ := EStateM.run_bind_eq_ok.mp h
    rw [igetLocked, EStateM.run_bind_of_ok (EStateM.run_get w), hi] at hget
    dsimp only at hget
    split at hget
    · cases hget
    split at hget
    · cases hget
    next hcached hnew =>
    cases hget
    have hobj : ((w.setInode p { i with iCount := i.iCount + 1 }).addEvent (.iget p)).inodes p =
        some { i with iCount := i.iCount + 1 } := Function.update_self _ _ _
    have hold : (!i.iNew) = true := by simpa using hnew
    dsimp only at hrun
    rw [EStateM.run_bind_of_ok (run_getInode_of hobj)] at hrun
    dsimp only at hrun
    rw [if_pos hold] at hrun
    cases hrun
    exact ⟨i.iCount + 1, hobj⟩
  · have hframe := (within_spfsInodeById env id).of_ok h
    exact ⟨i.iCount, (hframe.others p hne).trans hi⟩

end Lookups

/-- After the lookup of one of the ids the callback does the step on it, and stays in `G`. -/
def ActsAs {γ : Type} (env : Env) (f : ForAllCb γ) (step : γ → ℕ → γ × Bool) (p : ℕ) (ids : List ℕ)
    (G : World → Prop) : Prop :=
  ∀ w₀ w closure id, G w₀ → id ∈ ids → (spfsInodeById env id).run w₀ = .ok (.ok (some id)) w → G w →
    ∃ w', (f closure (some id)).run w = .ok (step closure id) w' ∧ G w' ∧ KeepsDir p w w'

section Visits

variable {γ : Type} {env : Env} {p : ℕ} {ids : List ℕ} {G : World → Prop} {f : ForAllCb γ}
  {step : γ → ℕ → γ × Bool} {w : World}

theorem Resolves.mono {ids' : List ℕ} (h : Resolves env p ids G) (hsub : ∀ id ∈ ids', id ∈ ids) :
    Resolves env p ids' G :=
  ⟨h.log, h.lock, fun w id hG hid => h.lookup w id hG (hsub id hid)⟩

theorem ActsAs.mono {ids' : List ℕ} (h : ActsAs env f step p ids G) (hsub : ∀ id ∈ ids', id ∈ ids) :
    ActsAs env f step p ids' G :=
  fun w₀ w closure id hG₀ hid => h w₀ w closure id hG₀ (hsub id hid)

theorem run_visitAll_of_resolves (hids : Resolves env p ids G) (hf : ActsAs env f step p ids G)
    (hG : G w) (closure : γ) :
    ∃ w', (visitAll env f ids closure).run w = .ok (foldIds step ids closure) w' ∧ G w' ∧
      KeepsDir p w w' := by
  induction ids generalizing closure w with
  | nil => exact ⟨w, rfl, hG, refl_of (KeepsDir p) w⟩
  | cons id ids ih =>
    obtain ⟨w₁, hlookup, hG₁⟩ := hids.lookup w id hG List.mem_cons_self
    obtain ⟨w₂, hcall, hG₂, hkept⟩ := hf w w₁ closure id hG List.mem_cons_self hlookup hG₁
    have hdir : KeepsDir p w w₂ := trans_of (KeepsDir p) (spfsInodeById_keepsDir hlookup) hkept
    rw [visitAll, EStateM.run_bind_of_ok hlookup]
    dsimp only
    rw [EStateM.run_bind_of_ok hcall, foldIds]
    generalize step closure id = r
    obtain ⟨closure', more⟩ := r
    cases more with
    | false => exact ⟨w₂, rfl, hG₂, hdir⟩
    | true =>
      have htail : ∀ id' ∈ ids, id' ∈ id :: ids := fun _ h => List.mem_cons_of_mem id h
      obtain ⟨w₃, hrest, hG₃, hdir₃⟩ := ih (hids.mono htail) (hf.mono htail) hG₂ closure'
      exact ⟨w₃, hrest, hG₃, trans_of (KeepsDir p) hdir hdir₃⟩

theorem keepsDir_addEvent (w : World) (e : Event) : KeepsDir p w (w.addEvent e) :=
  fun i hi => ⟨i.iCount, hi⟩

theorem run_visitBlocks_of_resolves {blocks : List (ℕ × List ℕ)}
    (hids : Resolves env p (listedIds blocks) G) (hf : ActsAs env f step p (listedIds blocks) G)
    (hG : G w) (closure : γ) :
    ∃ w', (visitBlocks env f blocks closure).run w =
        .ok (foldIds step (listedIds blocks) closure) w' ∧ G w' ∧ KeepsDir p w w' := by
  induction blocks generalizing closure w with
  | nil => exact ⟨w, rfl, hG, refl_of (KeepsDir p) w⟩
  | cons block blocks ih =>
    obtain ⟨s, ids⟩ := block
    have hhead : ∀ id ∈ ids, id ∈ listedIds ((s, ids) :: blocks) :=
      fun _ h => List.mem_append_left _ h
    have htail : ∀ id ∈ listedIds blocks, id ∈ listedIds ((s, ids) :: blocks) :=
      fun _ h => List.mem_append_right _ h
    obtain ⟨w₁, hvisit, hG₁, hdir₁⟩ := run_visitAll_of_resolves (hids.mono hhead) (hf.mono hhead)
      (hids.log w (.bread s true) hG) closure
    have hdir : KeepsDir p w (w₁.addEvent (.brelse s)) :=
      trans_of (KeepsDir p) (trans_of (KeepsDir p) (keepsDir_addEvent w _) hdir₁)
        (keepsDir_addEvent w₁ _)
    have hG₂ := hids.log w₁ (.brelse s) hG₁
    have happend : foldIds step (listedIds ((s, ids) :: blocks)) closure =
        if !(foldIds step ids closure).2 then ((foldIds step ids closure).1, false)
        else foldIds step (listedIds blocks) (foldIds step ids closure).1 :=
      foldIds_append step ids (listedIds blocks) closure
    rw [visitBlocks, EStateM.run_bind_of_ok (run_emit _ w), EStateM.run_bind_of_ok hvisit, happend]
    generalize foldIds step ids closure = r
    obtain ⟨closure', more⟩ := r
    dsimp only
    rw [EStateM.run_bind_of_ok (run_brelse s w₁)]
    cases more with
    | false => exact ⟨_, rfl, hG₂, hdir⟩
    | true =>
      obtain ⟨w₃, hrest, hG₃, hdir₃⟩ := ih (hids.mono htail) (hf.mono htail) hG₂ closure'
      exact ⟨w₃, hrest, hG₃, trans_of (KeepsDir p) hdir hdir₃⟩

/-- The traversal of a directory whose ids resolve is a fold over them. -/
theorem run_spfsForAllChildren_of_resolves {i : SpfsInode} {blocks : List (ℕ × List ℕ)}
    (hio : ∀ t s, env.ioOk t s = true) (hstore : KeepsStore f) (hp : w.inodes p = some i)
    (hsb : i.iSb = .sb) (hmode : sIsDir i.iMode = true) (hlock : i.lock = false)
    (hlists : DirLists w.bSize w.disk i.start blocks) (hfuel : blocks.length ≤ env.fuel)
    (hids : Resolves env p (listedIds blocks) G) (hf : ActsAs env f step p (listedIds blocks) G)
    (hG : G w) (closure : γ) :
    ∃ w', (spfsForAllChildren env f p closure).run w =
        .ok (0, (foldIds step (listedIds blocks) closure).1) w' ∧ G w' ∧ KeepsDir p w w' ∧
        SameStore w w' := by
  rw [run_spfsForAllChildren hio hstore hp hsb hmode hlock hlists hfuel closure]
  set w₁ := (w.setInode p { i with lock := true }).addEvent (.lock p)
  have hG₁ : G w₁ := hids.log _ _ (hids.lock w i true hG hp)
  have hp₁ : w₁.inodes p = some { i with lock := true } := Function.update_self _ _ _
  obtain ⟨w₂, hvisit, hG₂, hdir⟩ := run_visitBlocks_of_resolves hids hf hG₁ closure
  obtain ⟨n, hp₂⟩ := hdir _ hp₁
  rw [EStateM.run_bind_of_ok (run_mutexLock_of hp hlock), EStateM.run_bind_of_ok hvisit,
    EStateM.run_bind_of_ok (run_mutexUnlock_of hp₂)]
  have hstore₂ : SameStore w₁ w₂ := (within_visitBlocks hstore blocks closure).of_ok hvisit
  refine ⟨_, rfl, hids.log _ _ (hids.lock w₂ _ false hG₂ hp₂), fun j hj => ⟨n, ?_⟩,
    ⟨hstore₂.disk, hstore₂.bSize, hstore₂.sbi⟩⟩
  obtain rfl : i = j := Option.some.inj (hp.symm.trans hj)
  rw [← hlock]
  exact Function.update_self _ _ _

end Visits

/-! ## Ids in the cache -/

/-- The inodes with the ids are in the cache, as `obj` but for references and the lock. -/
def AllCached (obj : ℕ → SpfsInode) (ids : List ℕ) (w : World) : Prop :=
  ∀ id ∈ ids, ∃ n b, w.inodes id = some { obj id with iCount := n, lock := b }

/-- The objects can be found by their ids, and are complete. -/
def Findable (obj : ℕ → SpfsInode) (ids : List ℕ) : Prop :=
  ∀ id ∈ ids, (obj id).isCached id = true ∧ (obj id).iNew = false

section Cached

variable {env : Env} {obj : ℕ → SpfsInode} {ids : List ℕ} {w : World} {p : ℕ}

/-- The lookup of an object in the cache counts a reference. -/
theorem run_spfsInodeById_cached {i : SpfsInode} (hp : w.inodes p = some i)
    (hcached : i.isCached p = true) (hnew : i.iNew = false) :
    (spfsInodeById env p).run w =
      .ok (.ok (some p)) ((w.setInode p { i with iCount := i.iCount + 1 }).addEvent (.iget p)) := by
  set w₁ := (w.setInode p { i with iCount := i.iCount + 1 }).addEvent (.iget p)
  have hget : (igetLocked env p).run w = .ok (some p) w₁ := run_igetLocked_some hp hcached hnew
  have hp₁ : w₁.inodes p = some { i with iCount := i.iCount + 1 } := Function.update_self _ _ _
  rw [spfsInodeById, EStateM.run_bind_of_ok hget]
  dsimp only
  rw [EStateM.run_bind_of_ok (run_getInode_of hp₁), hnew]
  rfl

/-- The lookup of an inode that is in the cache takes a reference, if it returns. -/
theorem spfsInodeById_present {id : ℕ} {w' : World} {i : SpfsInode} (hi : w.inodes id = some i)
    {r : Except ℤ (Option ℕ)} (hrun : (spfsInodeById env id).run w = .ok r w') :
    r = .ok (some id) ∧ w' = (w.setInode id { i with iCount := i.iCount + 1 }).addEvent (.iget id) := by
  have hfound : i.isCached id = true ∧ i.iNew = false := by
    obtain ⟨obj, w₁, hget, -⟩ := EStateM.run_bind_eq_ok.mp hrun
    exact igetLocked_present hi hget
  rw [run_spfsInodeById_cached hi hfound.1 hfound.2] at hrun
  obtain ⟨hr, hw⟩ := EStateM.Result.ok.inj hrun
  exact ⟨hr.symm, hw.symm⟩

/-- A change of the references and the lock of an object keeps the objects in the cache. -/
theorem AllCached.setInode (h : AllCached obj ids w) {i : SpfsInode} (hp : w.inodes p = some i)
    (n : ℕ) (b : Bool) : AllCached obj ids (w.setInode p { i with iCount := n, lock := b }) := by
  intro id hid
  obtain ⟨m, c, hj⟩ := h id hid
  by_cases hne : id = p
  · subst hne
    obtain rfl := Option.some.inj (hp.symm.trans hj)
    exact ⟨n, b, Function.update_self _ _ _⟩
  · exact ⟨m, c, (Function.update_of_ne hne _ _).trans hj⟩

theorem resolves_allCached (env : Env) (p : ℕ) (hfind : Findable obj ids) :
    Resolves env p ids (AllCached obj ids) where
  log _ _ h := h
  lock w i b h hp := h.setInode hp i.iCount b
  lookup w id h hid := by
    obtain ⟨n, b, hj⟩ := h id hid
    obtain ⟨hcached, hnew⟩ := hfind id hid
    exact ⟨_, run_spfsInodeById_cached hj hcached hnew, h.setInode hj (n + 1) b⟩

end Cached

end Spfs
