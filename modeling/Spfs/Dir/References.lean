-- SUMMARY: The references of inodes over calls of spfs_iterate and spfs_lookup, which take them and give none back.
import Spfs.Dir.Iterate
import Spfs.Namespace.Lookup

/-!
# References

Every child that a traversal resolves gets one more reference, and nothing gives one back.
So the counts are right after a call that resolves no child, and after a lookup that
resolves no child before the one that it passes on.
-/

namespace Spfs

open EStateM (run_bind_of_ok run_bind_of_error)

/-- The references of an inode; there are none to one that is not in the cache. -/
def World.refs (w : World) (q : ℕ) : ℕ :=
  match w.inodes q with
  | some i => i.iCount
  | none => 0

/-- A call that goes through the children of a directory. -/
inductive TravCall where
  | iterate (file : DirFile) (dirCtx : DirContext)
  | lookup (parent : ℕ) (dentry : Dentry)

/-- The call, with the inode whose reference it passes on to the dentry. -/
def TravCall.run (env : Env) : TravCall → Kernel (Option ℕ)
  | .iterate file dirCtx => do
    let _ ← spfsIterate env file dirCtx
    return none
  | .lookup parent dentry => do
    match ← spfsLookup env parent dentry with
    | some found => return found.dInode
    | none => return none

/-- All references are as before, but for the one that was passed on. -/
def RefsBalanced (passed : Option ℕ) (w w' : World) : Prop :=
  ∀ q, w'.refs q = w.refs q + if passed = some q then 1 else 0

/-! ## Children that do not resolve -/

section Quiet

variable (env : Env) (w : World)

/-- At that time the id is not in the cache, and there is no memory for it. -/
def Unresolved (t id : ℕ) : Prop := w.inodes id = none ∧ env.slabPick t = none

/-- The ids, looked up from a time on, do not resolve. -/
def NoneResolve : ℕ → List ℕ → Prop
  | _, [] => True
  | t, id :: ids => Unresolved env w t id ∧ NoneResolve (t + 1) ids

/-- Of the ids, looked up from a time on, the first that resolves is the one that is meant. -/
def FirstResolves (meant : ℕ → ℕ → Prop) : ℕ → List ℕ → Prop
  | _, [] => False
  | t, id :: ids => meant t id ∨ Unresolved env w t id ∧ FirstResolves meant (t + 1) ids

/-- At that time the id resolves to an inode with the name: it is in the cache, or its
record has the name and what is on the stack counts the one reference. -/
def HasName (name : List UInt8) (t id : ℕ) : Prop :=
  (∃ i, w.inodes id = some i ∧ strcmp i.name.val name = .ok 0) ∨
    w.inodes id = none ∧ env.slabPick t ≠ none ∧ (∀ t', (env.junk t').iCount = 1) ∧
      ∃ offset s j, Finds w.disk w.bSize w.sbi.tree.start id offset s j ∧
        strcmp ((w.disk offset).readBytes 38 256).val name = .ok 0

/-- From a time and a sector on, no id of the chain of blocks resolves before the one that
is meant. Only so many blocks count. -/
def QuietChain (meant : ℕ → ℕ → Prop) : ℕ → ℕ → ℕ → Prop
  | 0, _, _ => True
  | fuel + 1, t, s =>
    s ≠ 0 → env.ioOk t s = true → dirMagic (w.disk s) = spookyFsDirBlockMagic →
      let header := parsedDir (w.disk s)
      let ids := (entriesFrom w.bSize (w.disk s) 12).take header.children
      FirstResolves env w meant (t + 1) ids ∨ NoneResolve env w (t + 1) ids ∧
        (header.children ≤ (entriesFrom w.bSize (w.disk s) 12).length →
          QuietChain meant fuel (t + 1 + ids.length + 1) header.next)

/-- The call does not get to the children, or none resolves but the one with the name that
is looked for, as the first. -/
def TravCall.Quiet : TravCall → Prop
  | .iterate file dirCtx => ∀ dir, w.inodes file.inode = some dir →
    (dirEmitDots dir.iIno file.parentIno dirCtx).2 = true →
    ¬ (dirEmitDots dir.iIno file.parentIno dirCtx).1.pos ≥ (dir.capacity + 2) % 2 ^ 32 →
    sIsDir dir.iMode = true → QuietChain env w (fun _ _ => False) env.fuel (w.time + 1) dir.start
  | .lookup parent dentry => ∀ dir, w.inodes parent = some dir → sIsDir dir.iMode = true →
    QuietChain env w (HasName env w dentry.name) env.fuel (w.time + 1) dir.start

end Quiet

/-! ## Lookups of ids -/

/-- The store is the same, and so are the names and the references of all inodes. -/
structure Untouched (w w' : World) : Prop where
  store : SameStore w w'
  objects : ∀ q, (w'.inodes q).map (fun i => (i.name, i.iCount)) =
    (w.inodes q).map fun i => (i.name, i.iCount)

instance : IsPreorder World Untouched where
  refl w := ⟨refl_of SameStore w, fun _ => rfl⟩
  trans _ _ _ h h' := ⟨trans_of SameStore h.store h'.store, fun q => (h'.objects q).trans (h.objects q)⟩

instance : IgnoresLog Untouched where
  addEvent w e := ⟨IgnoresLog.addEvent w e, fun _ => rfl⟩

section Untouched

variable {w w' : World} {q : ℕ}

theorem Untouched.none_iff (h : Untouched w w') : w'.inodes q = none ↔ w.inodes q = none := by
  have hq := h.objects q
  cases hw : w.inodes q <;> cases hw' : w'.inodes q <;> simp [hw, hw'] at hq ⊢

theorem Untouched.object (h : Untouched w w') {i : SpfsInode} (hi : w.inodes q = some i) :
    ∃ j, w'.inodes q = some j ∧ j.name = i.name ∧ j.iCount = i.iCount := by
  have hq := h.objects q
  rw [hi] at hq
  obtain ⟨j, hj, heq⟩ := Option.map_eq_some_iff.mp hq
  exact ⟨j, hj, congrArg Prod.fst heq, congrArg Prod.snd heq⟩

theorem Untouched.refs (h : Untouched w w') : w'.refs q = w.refs q := by
  cases hq : w.inodes q with
  | none => rw [World.refs, World.refs, hq, h.none_iff.mpr hq]
  | some i =>
    obtain ⟨j, hj, -, hcount⟩ := h.object hq
    rw [World.refs, World.refs, hq, hj]
    exact hcount

theorem untouched_setLock {i : SpfsInode} (hi : w.inodes q = some i) (b : Bool) :
    Untouched w (w.setInode q { i with lock := b }) := by
  refine ⟨⟨rfl, rfl, rfl⟩, fun r => ?_⟩
  by_cases hne : r = q
  · rw [hne, World.setInode_inodes, Function.update_self, hi]
    rfl
  · rw [World.setInode_inodes, Function.update_of_ne hne]

theorem RefsBalanced.of_untouched (h : Untouched w w') : RefsBalanced none w w' :=
  fun _ => h.refs

variable {w'' : World} {passed : Option ℕ}

theorem RefsBalanced.trans_untouched (h : RefsBalanced passed w w') (h' : Untouched w' w'') :
    RefsBalanced passed w w'' :=
  fun q => h'.refs.trans (h q)

theorem RefsBalanced.of_untouched_trans (h : Untouched w w') (h' : RefsBalanced passed w' w'') :
    RefsBalanced passed w w'' := by
  intro q
  rw [h' q, h.refs]

end Untouched

section Lookups

variable {env : Env} {w w' : World} {id : ℕ}

theorem run_spfsInodeById_noMemory (h : Unresolved env w w.time id) :
    (spfsInodeById env id).run w = .ok (.error (-ENOMEM)) (w.addEvent (.iget id)) := by
  have hget : (igetLocked env id).run w = .ok none (w.addEvent (.iget id)) := by
    rw [run_igetLocked_none id h.1, h.2]
  exact run_bind_of_ok hget

theorem refs_counted {i : SpfsInode} (hi : w.inodes id = some i) (e : Event) :
    RefsBalanced (some id) w ((w.setInode id { i with iCount := i.iCount + 1 }).addEvent e) := by
  intro q
  by_cases hne : q = id
  · subst hne
    simp only [World.refs, World.addEvent_inodes, World.setInode_inodes, Function.update_self, hi, if_pos]
  · have hid : ¬ (some id = some q) := fun h => hne (Option.some.inj h).symm
    simp only [World.refs, World.addEvent_inodes, World.setInode_inodes, Function.update_of_ne hne,
      if_neg hid, Nat.add_zero]

/-- Only a lack of memory makes a lookup return an error pointer. -/
theorem spfsInodeById_error {e : ℤ} (hfree : w.inodes id = none)
    (hrun : (spfsInodeById env id).run w = .ok (.error e) w') : env.slabPick w.time = none := by
  cases hpick : env.slabPick w.time with
  | none => rfl
  | some k =>
    have hget : (igetLocked env id).run w = .ok (some id) (withNewObject w id k) := by
      rw [run_igetLocked_none id hfree, hpick]
    rw [spfsInodeById, run_bind_of_ok hget] at hrun
    obtain ⟨result, w₁, -, hrun₁⟩ := EStateM.run_bind_eq_ok.mp hrun
    split at hrun₁
    · cases hrun₁
    obtain ⟨⟨res, loaded⟩, w₂, -, hrun₂⟩ := EStateM.run_bind_eq_ok.mp hrun₁
    dsimp only at hrun₂
    split at hrun₂
    · obtain ⟨_, w₃, -, hrun₃⟩ := EStateM.run_bind_eq_ok.mp hrun₂
      cases hrun₃
    · obtain ⟨_, w₃, -, hrun₃⟩ := EStateM.run_bind_eq_ok.mp hrun₂
      obtain ⟨_, w₄, -, hrun₄⟩ := EStateM.run_bind_eq_ok.mp hrun₃
      obtain ⟨_, w₅, -, hrun₅⟩ := EStateM.run_bind_eq_ok.mp hrun₄
      cases hrun₅

/-- The lookup of an inode that is loaded, when it returns one. -/
theorem spfsInodeById_loads_counted (hfree : w.inodes id = none) (hcount : ∀ t, (env.junk t).iCount = 1)
    (hrun : (spfsInodeById env id).run w = .ok (.ok (some id)) w') :
    RefsBalanced (some id) w w' := by
  obtain ⟨-, offset, s, k, nlink, -, hobj⟩ := spfsInodeById_loads hfree hrun
  have hothers := ((within_spfsInodeById env id).of_ok hrun).others
  intro q
  by_cases hne : q = id
  · subst hne
    simp only [World.refs, hobj, hfree, if_pos]
    exact hcount _
  · have hid : ¬ (some id = some q) := fun h => hne (Option.some.inj h).symm
    simp only [World.refs, hothers q hne, if_neg hid, Nat.add_zero]

end Lookups

/-! ## Visits -/

section Visits

variable {env : Env} {w w' w'' : World} {γ : Type} {f : ForAllCb γ}

/-- A visit of ids that do not resolve calls nothing back. -/
theorem visitAll_none {ids : List ℕ} (hw : Untouched w w') (h : NoneResolve env w w'.time ids) (closure : γ) :
    ∃ w'', (visitAll env f ids closure).run w' = .ok (closure, true) w'' ∧ Untouched w w'' ∧
      w''.time = w'.time + ids.length := by
  induction ids generalizing w' with
  | nil => exact ⟨w', rfl, hw, rfl⟩
  | cons id ids ih =>
    obtain ⟨hid, hids⟩ := h
    have hlookup := run_spfsInodeById_noMemory ⟨hw.none_iff.mpr hid.1, hid.2⟩
    have hw₁ : Untouched w (w'.addEvent (.iget id)) := trans_of Untouched hw (IgnoresLog.addEvent w' _)
    obtain ⟨w'', hrun, hw'', htime⟩ := ih hw₁ hids
    refine ⟨w'', ?_, hw'', ?_⟩
    · rw [visitAll, run_bind_of_ok hlookup]
      exact hrun
    · rw [htime, World.addEvent_time, List.length_cons]
      omega

/-- The visit of a child by the callback of a lookup for its name. -/
theorem visitAll_hit {name : List UInt8} {id : ℕ} {ids : List ℕ} {i : SpfsInode} {r : Option ℕ × Bool}
    (hlookup : (spfsInodeById env id).run w = .ok (.ok (some id)) w') (hi : w'.inodes id = some i)
    (hname : strcmp i.name.val name = .ok 0)
    (hrun : (visitAll env (spfsInodeByNameCb name) (id :: ids) none).run w = .ok r w'') :
    r = (some id, false) ∧ w'' = w' := by
  rw [visitAll, run_bind_of_ok hlookup] at hrun
  dsimp only at hrun
  rw [run_bind_of_ok (run_spfsInodeByNameCb hi hname)] at hrun
  obtain ⟨hr, hw⟩ := EStateM.Result.ok.inj hrun
  exact ⟨hr.symm, hw.symm⟩

/-- A visit whose first child has the name stops there, and the child has the reference. -/
theorem visitAll_first {name : List UInt8} {ids : List ℕ} {r : Option ℕ × Bool} (hw : Untouched w w')
    (h : FirstResolves env w (HasName env w name) w'.time ids)
    (hrun : (visitAll env (spfsInodeByNameCb name) ids none).run w' = .ok r w'') :
    r.2 = false ∧ RefsBalanced r.1 w w'' := by
  induction ids generalizing w' with
  | nil => cases h
  | cons id ids ih =>
    rcases h with (⟨i, hi, hname⟩ | ⟨hfree, hpick, hcount, offset, s, k, hfinds, hname⟩) | ⟨hid, hids⟩
    · obtain ⟨j, hj, hjname, -⟩ := hw.object hi
      obtain ⟨found, w₁, hlookup, -⟩ := EStateM.run_bind_eq_ok.mp hrun
      obtain ⟨rfl, rfl⟩ := spfsInodeById_present hj hlookup
      have hobj : ((w'.setInode id { j with iCount := j.iCount + 1 }).addEvent (.iget id)).inodes id =
          some { j with iCount := j.iCount + 1 } := Function.update_self ..
      obtain ⟨rfl, rfl⟩ := visitAll_hit hlookup hobj (hjname ▸ hname) hrun
      exact ⟨rfl, .of_untouched_trans hw (refs_counted hj _)⟩
    · have hfree' := hw.none_iff.mpr hfree
      obtain ⟨found, w₁, hlookup, hrest⟩ := EStateM.run_bind_eq_ok.mp hrun
      cases found with
      | error e => exact absurd (spfsInodeById_error hfree' hlookup) hpick
      | ok found =>
        cases found with
        | none => cases hrest
        | some q =>
          obtain ⟨rfl, offset', s', k', nlink, hfinds', hobj⟩ := spfsInodeById_loads hfree' hlookup
          rw [hw.store.disk, hw.store.bSize, hw.store.sbi] at hfinds'
          obtain rfl := hfinds.unique hfinds'
          rw [hw.store.disk] at hobj
          obtain ⟨rfl, rfl⟩ := visitAll_hit hlookup hobj hname hrun
          exact ⟨rfl, .of_untouched_trans hw (spfsInodeById_loads_counted hfree' hcount hlookup)⟩
    · have hlookup := run_spfsInodeById_noMemory ⟨hw.none_iff.mpr hid.1, hid.2⟩
      have hw₁ : Untouched w (w'.addEvent (.iget id)) := trans_of Untouched hw (IgnoresLog.addEvent w' _)
      rw [visitAll, run_bind_of_ok hlookup] at hrun
      exact ih hw₁ hids hrun

/-! ## Traversals -/

/-- A callback that stops at a child that is meant, with its reference to be passed on. -/
structure Keeps (env : Env) (w : World) (f : ForAllCb γ) (closure : γ) (passed : γ → Option ℕ)
    (meant : ℕ → ℕ → Prop) : Prop where
  store : KeepsStore f
  none : passed closure = none
  first : ∀ w' w'' ids r, Untouched w w' → FirstResolves env w meant w'.time ids →
    (visitAll env f ids closure).run w' = .ok r w'' → r.2 = false ∧ RefsBalanced (passed r.1) w w''

variable {closure : γ} {passed : γ → Option ℕ} {meant : ℕ → ℕ → Prop}

theorem keeps_spfsInodeByNameCb (env : Env) (w : World) (name : List UInt8) :
    Keeps env w (spfsInodeByNameCb name) none id (HasName env w name) where
  store := keepsStore_spfsInodeByNameCb name
  none := rfl
  first _ _ _ _ hw h hrun := visitAll_first hw h hrun

theorem not_firstResolves {t : ℕ} {ids : List ℕ} : ¬ FirstResolves env w (fun _ _ => False) t ids := by
  induction ids generalizing t with
  | nil => exact fun h => h
  | cons id ids ih =>
    rintro (h | ⟨-, h⟩)
    · exact h
    · exact ih h

theorem keeps_spfsIterateCb (env : Env) (w : World) (closure : DirContext × ℕ) :
    Keeps env w spfsIterateCb closure (fun _ => none) fun _ _ => False where
  store := keepsStore_spfsIterateCb
  none := rfl
  first _ _ _ _ _ h _ := absurd h not_firstResolves

/-- The loop over a chain on which no other child resolves. -/
theorem spfsForAllChildrenLit_balanced (hf : Keeps env w f closure passed meant) {fuel s : ℕ} {r : ℤ × γ}
    (hw : Untouched w w') (h : QuietChain env w meant fuel w'.time s)
    (hrun : (spfsForAllChildrenLit env f fuel s closure).run w' = .ok r w'') :
    RefsBalanced (passed r.2) w w'' := by
  induction fuel generalizing s w' with
  | zero =>
    cases s with
    | zero =>
      cases hrun
      rw [hf.none]
      exact .of_untouched hw
    | succ s => cases hrun
  | succ fuel ih =>
    by_cases hs : s = 0
    · subst hs
      cases hrun
      rw [hf.none]
      exact .of_untouched hw
    by_cases hio : env.ioOk w'.time s = true
    case neg =>
      rw [spfsForAllChildrenLit_unread hs (eq_false_of_ne_true hio)] at hrun
      cases hrun
      rw [hf.none]
      exact .of_untouched (trans_of Untouched hw (IgnoresLog.addEvent w' _))
    by_cases hmagic : dirMagic (w.disk s) = spookyFsDirBlockMagic
    case neg =>
      rw [← hw.store.disk] at hmagic
      rw [spfsForAllChildrenLit_stray hs hio hmagic] at hrun
      cases hrun
      rw [hf.none]
      exact .of_untouched (trans_of Untouched hw (IgnoresLog.addEvent w' _))
    have hdir : DirAt (w'.disk s) (parsedDir (w.disk s)) := by
      rw [hw.store.disk]
      exact ⟨hmagic, rfl⟩
    have hw₁ : Untouched w (w'.addEvent (.bread s true)) := trans_of Untouched hw (IgnoresLog.addEvent w' _)
    rw [spfsForAllChildrenLit_block hf.store hs hio hdir, hw.store.disk, hw.store.bSize] at hrun
    rcases h hs hio hmagic with hfirst | ⟨hnone, hnext⟩
    · -- the child that is meant ends the traversal
      obtain ⟨⟨closure', more⟩, w₂, hvisit, hrest⟩ := EStateM.run_bind_eq_ok.mp hrun
      obtain ⟨hmore, hbalanced⟩ := hf.first _ _ _ _ hw₁ hfirst hvisit
      dsimp only at hmore hrest
      subst hmore
      cases hrest
      exact hbalanced.trans_untouched (IgnoresLog.addEvent w₂ _)
    · obtain ⟨w₂, hvisit, hw₂, htime⟩ := visitAll_none (f := f) hw₁ hnone closure
      rw [run_bind_of_ok hvisit] at hrun
      by_cases hcount : (parsedDir (w.disk s)).children ≤ (entriesFrom w.bSize (w.disk s) 12).length
      · simp only [Bool.not_true, Bool.false_eq_true, if_false, if_pos hcount] at hrun
        have hquiet := hnext hcount
        have ht : (w₂.addEvent (.brelse s)).time = w'.time + 1 +
            ((entriesFrom w.bSize (w.disk s) 12).take (parsedDir (w.disk s)).children).length + 1 := by
          rw [World.addEvent_time, htime, World.addEvent_time]
        rw [← ht] at hquiet
        exact ih (trans_of Untouched hw₂ (IgnoresLog.addEvent w₂ _)) hquiet hrun
      · simp only [Bool.not_true, Bool.false_eq_true, if_false, if_neg hcount] at hrun
        cases hrun
        rw [hf.none]
        exact .of_untouched hw₂

/-- Taking the lock and giving it back do not touch the references. -/
theorem mutexLock_untouched {p : ℕ} {u : Unit} (hrun : (mutexLock p).run w = .ok u w') :
    Untouched w w' ∧ w'.time = w.time + 1 := by
  obtain ⟨i, w₁, hget, hrest⟩ := EStateM.run_bind_eq_ok.mp hrun
  rw [run_getInode] at hget
  split at hget <;> cases hget
  next hi =>
  split at hrest
  · cases hrest
  · cases hrest
    exact ⟨trans_of Untouched (untouched_setLock hi true) (IgnoresLog.addEvent _ _), rfl⟩

theorem mutexUnlock_untouched {p : ℕ} {u : Unit} (hrun : (mutexUnlock p).run w = .ok u w') :
    Untouched w w' := by
  obtain ⟨_, w₁, hmodify, hrest⟩ := EStateM.run_bind_eq_ok.mp hrun
  obtain ⟨i, w₂, hget, hput⟩ := EStateM.run_bind_eq_ok.mp hmodify
  rw [run_getInode] at hget
  split at hget <;> cases hget
  next hi =>
  cases hput
  cases hrest
  exact trans_of Untouched (untouched_setLock hi false) (IgnoresLog.addEvent _ _)

/-- The traversal of a directory on which no other child resolves. -/
theorem spfsForAllChildren_balanced (hf : Keeps env w f closure passed meant) {p : ℕ} {dir : SpfsInode}
    (hp : w.inodes p = some dir)
    (hquiet : sIsDir dir.iMode = true → QuietChain env w meant env.fuel (w.time + 1) dir.start)
    {r : ℤ × γ} (hrun : (spfsForAllChildren env f p closure).run w = .ok r w') :
    RefsBalanced (passed r.2) w w' := by
  rw [spfsForAllChildren, run_bind_of_ok (run_getInode_of hp)] at hrun
  obtain ⟨_, w₁, hsuper, hrest⟩ := EStateM.run_bind_eq_ok.mp hrun
  obtain rfl := superOf_same hsuper
  by_cases hmode : sIsDir dir.iMode = true
  · rw [if_neg (by simp [hmode])] at hrest
    obtain ⟨_, w₂, hlock, hrest₂⟩ := EStateM.run_bind_eq_ok.mp hrest
    obtain ⟨r', w₃, hlit, hrest₃⟩ := EStateM.run_bind_eq_ok.mp hrest₂
    obtain ⟨_, w₄, hunlock, hreturn⟩ := EStateM.run_bind_eq_ok.mp hrest₃
    obtain ⟨hw₂, htime⟩ := mutexLock_untouched hlock
    have hchain := hquiet hmode
    rw [← htime] at hchain
    have hbalanced := spfsForAllChildrenLit_balanced hf hw₂ hchain hlit
    cases hreturn
    exact hbalanced.trans_untouched (mutexUnlock_untouched hunlock)
  · rw [if_pos (by simp [hmode])] at hrest
    cases hrest
    rw [hf.none]
    exact .of_untouched (refl_of Untouched _)

end Visits

/-! ## Calls -/

section Calls

variable {env : Env} {w w' : World}

/-- One call. -/
theorem TravCall.Quiet.balanced {call : TravCall} (h : call.Quiet env w) {passed : Option ℕ}
    (hrun : (call.run env).run w = .ok passed w') : RefsBalanced passed w w' := by
  cases call with
  | iterate file dirCtx =>
    obtain ⟨r, w₁, hiterate, hreturn⟩ := EStateM.run_bind_eq_ok.mp hrun
    cases hreturn
    obtain ⟨dir, w₁, hget, hrest⟩ := EStateM.run_bind_eq_ok.mp hiterate
    rw [run_getInode] at hget
    split at hget <;> cases hget
    next hp =>
    have hquiet := h dir hp
    revert hrest hquiet
    generalize dirEmitDots dir.iIno file.parentIno dirCtx = dots
    obtain ⟨ctx, ok⟩ := dots
    intro hrest hquiet
    dsimp only at hrest hquiet
    cases ok with
    | false =>
      cases hrest
      exact .of_untouched (refl_of Untouched _)
    | true =>
      by_cases hdone : ctx.pos ≥ (dir.capacity + 2) % 2 ^ 32
      · simp only [Bool.not_true, Bool.false_eq_true, if_false, if_pos hdone] at hrest
        cases hrest
        exact .of_untouched (refl_of Untouched _)
      · simp only [Bool.not_true, Bool.false_eq_true, if_false, if_neg hdone] at hrest
        obtain ⟨r', w₂, hall, hreturn⟩ := EStateM.run_bind_eq_ok.mp hrest
        cases hreturn
        exact spfsForAllChildren_balanced (keeps_spfsIterateCb env _ _) hp (hquiet rfl hdone) hall
  | lookup parent dentry =>
    obtain ⟨found, w₁, hlookup, hreturn⟩ := EStateM.run_bind_eq_ok.mp hrun
    obtain ⟨dir, w₂, hget, hrest⟩ := EStateM.run_bind_eq_ok.mp hlookup
    rw [run_getInode] at hget
    split at hget <;> cases hget
    next hp =>
    obtain ⟨_, w₃, hbug, hrest₂⟩ := EStateM.run_bind_eq_ok.mp hrest
    rw [run_bugOn] at hbug
    split at hbug <;> cases hbug
    obtain ⟨result, w₄, hname, hrest₃⟩ := EStateM.run_bind_eq_ok.mp hrest₂
    obtain ⟨⟨res, result'⟩, w₅, hall, hresult⟩ := EStateM.run_bind_eq_ok.mp hname
    cases hresult
    have hbalanced := spfsForAllChildren_balanced (keeps_spfsInodeByNameCb env _ dentry.name) hp (h dir hp) hall
    cases result with
    | none =>
      cases hrest₃
      cases hreturn
      exact hbalanced
    | some inode =>
      cases hrest₃
      cases hreturn
      exact hbalanced

/-- Calls one after the other that return, each where it is quiet, with the references that
they pass on, newest first. -/
inductive QuietCalls : World → World → List (Option ℕ) → Prop
  | nil {w : World} : QuietCalls w w []
  | call {w w₁ w₂ : World} {passed : Option ℕ} {before : List (Option ℕ)} {env : Env} {call : TravCall}
      (hbefore : QuietCalls w w₁ before) (hquiet : call.Quiet env w₁)
      (hrun : (call.run env).run w₁ = .ok passed w₂) : QuietCalls w w₂ (passed :: before)

/-- After each call of a sequence, the references of every inode are those at the start and
those that lookups of it passed on. -/
theorem travCalls_balanced {passed : List (Option ℕ)} (h : QuietCalls w w' passed) (q : ℕ) :
    w'.refs q = w.refs q + passed.count (some q) := by
  induction h with
  | nil => rfl
  | call hbefore hquiet hrun ih =>
    rw [hquiet.balanced hrun q, ih, List.count_cons, Nat.add_assoc]
    simp only [beq_iff_eq]

end Calls

/-! ## A directory with one child -/

/-- The ids that a chain lists are those that the traversal takes from its blocks. -/
theorem DirLists.head_ids {bSize start s : ℕ} {disk : ℕ → Block} {ids : List ℕ}
    {blocks : List (ℕ × List ℕ)} (h : DirLists bSize disk start ((s, ids) :: blocks)) :
    (entriesFrom bSize (disk start) 12).take (parsedDir (disk start)).children = ids := by
  generalize hblocks : (s, ids) :: blocks = blocks' at h
  cases h with
  | nil => cases hblocks
  | cons _ hdir =>
    obtain ⟨hhead, -⟩ := List.cons.inj hblocks
    rw [hdir.eq]
    exact (congrArg Prod.snd hhead).symm

/-- The only child is in the cache, and the callback just looks at it. -/
theorem run_spfsForAllChildren_oneCached {env : Env} {w : World} {p s id : ℕ} {dir i : SpfsInode} {γ : Type}
    {f : ForAllCb γ} (hio : ∀ t s, env.ioOk t s = true) (hfuel : env.fuel ≠ 0) (hf : KeepsStore f)
    (hp : w.inodes p = some dir) (h : Usable dir) (hlists : DirLists w.bSize w.disk dir.start [(s, [id])])
    (hi : w.inodes id = some i) (hne : id ≠ p) (hcached : i.isCached id = true) (hnew : i.iNew = false)
    {closure closure' : γ} {more : Bool}
    (hcall : ∀ w₁, w₁.inodes id = some { i with iCount := i.iCount + 1 } →
      (f closure (some id)).run w₁ = .ok (closure', more) w₁) :
    ∃ w', (spfsForAllChildren env f p closure).run w = .ok (0, closure') w' ∧ w'.refs id = i.iCount + 1 := by
  have hi₁ : (visitingWorld w p dir).inodes id = some i := (Function.update_of_ne hne ..).trans hi
  have hlookup := @run_spfsInodeById_cached env _ _ _ hi₁ hcached hnew
  set w₁ := ((visitingWorld w p dir).setInode id { i with iCount := i.iCount + 1 }).addEvent (.iget id)
  have hobj : w₁.inodes id = some { i with iCount := i.iCount + 1 } := Function.update_self ..
  have hp₁ : (w₁.addEvent (.brelse dir.start)).inodes p = some { dir with lock := true } :=
    (Function.update_of_ne hne.symm ..).trans (Function.update_self ..)
  have hvisit : (visitAll env f [id] closure).run (visitingWorld w p dir) = .ok (closure', more) w₁ := by
    rw [visitAll, run_bind_of_ok hlookup]
    dsimp only
    rw [run_bind_of_ok (hcall w₁ hobj)]
    cases more <;> rfl
  have hblocks : (visitBlocks env f [(dir.start, [id])] closure).run
      ((w.setInode p { dir with lock := true }).addEvent (.lock p)) =
      .ok (closure', more) (w₁.addEvent (.brelse dir.start)) := by
    rw [visitBlocks, run_bind_of_ok (run_emit _ _)]
    show (visitAll env f [id] closure >>= _).run (visitingWorld w p dir) = _
    rw [run_bind_of_ok hvisit]
    dsimp only
    rw [run_bind_of_ok (run_brelse dir.start w₁)]
    cases more <;> rfl
  refine ⟨((w₁.addEvent (.brelse dir.start)).setInode p { dir with lock := false }).addEvent (.unlock p), ?_, ?_⟩
  · rw [run_spfsForAllChildren_one hio hfuel hf hp h hlists, run_bind_of_ok hblocks,
      run_bind_of_ok (run_mutexUnlock_of hp₁)]
    rfl
  · simp only [World.refs, World.addEvent_inodes, World.setInode_inodes, Function.update_of_ne hne, hobj]

section OneChild

/-- The directory of `oneChildWorld`. -/
def oneChildDir : SpfsInode := { plainDir 1 with start := 50, capacity := 1 }

variable {γ : Type} {f : ForAllCb γ} {closure closure' : γ} {more : Bool}

theorem run_spfsForAllChildren_oneChild (hf : KeepsStore f)
    (hcall : ∀ w₁ n, w₁.inodes 5 = some { namedFile shortName 5 with iCount := n } →
      (f closure (some 5)).run w₁ = .ok (closure', more) w₁) :
    ∃ w', (spfsForAllChildren (.calm 9) f 1 closure).run (oneChildWorld shortName) = .ok (0, closure') w' ∧
      w'.refs 5 = 2 := by
  have hp : (oneChildWorld shortName).inodes 1 = some oneChildDir := rfl
  have hi : (oneChildWorld shortName).inodes 5 = some (namedFile shortName 5) := rfl
  obtain ⟨hcached, hnew⟩ := findable_namedFile shortName [5] 5 (List.mem_singleton_self 5)
  exact run_spfsForAllChildren_oneCached (fun _ _ => rfl) (by decide) hf hp ⟨rfl, by decide, rfl⟩
    (dirLists_oneChildWorld shortName) hi (by decide) hcached hnew fun w₁ hobj => hcall w₁ 2 hobj

theorem shortName_strcmp : strcmp shortName.val [0x61] = .ok 0 := by decide

/-- The file "a" is found, and the dentry gets the reference. -/
theorem travCalls_balanced_oneChild :
    ∃ w', ((TravCall.lookup 1 ⟨[0x61], none⟩).run (.calm 9)).run (oneChildWorld shortName) = .ok (some 5) w' ∧
      w'.refs 5 = 2 := by
  have hcall (w₁ : World) (n : ℕ) (hobj : w₁.inodes 5 = some { namedFile shortName 5 with iCount := n }) :
      (spfsInodeByNameCb [0x61] none (some 5)).run w₁ = .ok (some 5, false) w₁ :=
    run_spfsInodeByNameCb hobj shortName_strcmp
  obtain ⟨w', hall, -⟩ := run_spfsForAllChildren_oneChild (keepsStore_spfsInodeByNameCb [0x61]) hcall
  have hp : (oneChildWorld shortName).inodes 1 = some oneChildDir := rfl
  have hsb : (bugOn (oneChildDir.iSb = .null) : Kernel Unit).run (oneChildWorld shortName) =
      .ok () (oneChildWorld shortName) := by
    rw [run_bugOn, if_neg (by decide)]
  have hname : (spfsInodeByName (.calm 9) 1 ⟨[0x61], none⟩).run (oneChildWorld shortName) = .ok (some 5) w' := by
    rw [spfsInodeByName, run_bind_of_ok hall]
    rfl
  have hlookup : (spfsLookup (.calm 9) 1 ⟨[0x61], none⟩).run (oneChildWorld shortName) =
      .ok (some ⟨[0x61], some 5⟩) w' := by
    rw [spfsLookup, run_bind_of_ok (run_getInode_of hp), run_bind_of_ok hsb, run_bind_of_ok hname]
    rfl
  have hrun : ((TravCall.lookup 1 ⟨[0x61], none⟩).run (.calm 9)).run (oneChildWorld shortName) =
      .ok (some 5) w' := run_bind_of_ok hlookup
  have hquiet : (TravCall.lookup 1 ⟨[0x61], none⟩).Quiet (.calm 9) (oneChildWorld shortName) := by
    intro dir hdir _
    obtain rfl : oneChildDir = dir := Option.some.inj (hp.symm.trans hdir)
    show QuietChain (.calm 9) (oneChildWorld shortName) _ (8 + 1) _ 50
    intro _ _ _
    left
    rw [(dirLists_oneChildWorld shortName).head_ids]
    exact .inl (.inl ⟨namedFile shortName 5, rfl, shortName_strcmp⟩)
  exact ⟨w', hrun, travCalls_balanced (.call .nil hquiet hrun) 5⟩

/-- Reading the directory takes a reference of the file, which nobody has after that. -/
theorem not_refsBalanced_oneChild :
    ∃ w', ((TravCall.iterate rootFile ⟨fun _ => true, 0, [], 0⟩).run (.calm 9)).run (oneChildWorld shortName) =
        .ok none w' ∧ ¬ RefsBalanced none (oneChildWorld shortName) w' := by
  have hends : 0 ∈ shortName.val := by decide
  set ctx : DirContext := ⟨fun _ => true, 2, [dotEntry 1, dotdotEntry 1], 2⟩
  have hcall (w₁ : World) (n : ℕ) (hobj : w₁.inodes 5 = some { namedFile shortName 5 with iCount := n }) :
      (spfsIterateCb (ctx, 2) (some 5)).run w₁ = .ok (((emitAt 2 (namedFile shortName 5).entry ctx).1, 3),
        (emitAt 2 (namedFile shortName 5).entry ctx).2) w₁ := run_spfsIterateCb hobj hends (ctx, 2)
  obtain ⟨w', hrun, hrefs⟩ := run_spfsForAllChildren_oneChild keepsStore_spfsIterateCb hcall
  have hall : (spfsForAllChildren (.calm 9) spfsIterateCb rootFile.inode (ctx, 2)).run (oneChildWorld shortName) =
      .ok (0, (emitAt 2 (namedFile shortName 5).entry ctx).1, 3) w' := hrun
  have hp : (oneChildWorld shortName).inodes rootFile.inode = some oneChildDir := rfl
  have hdots : dirEmitDots oneChildDir.iIno rootFile.parentIno ⟨fun _ => true, 0, [], 0⟩ = (ctx, true) := rfl
  have hmore : ¬ ctx.pos ≥ (oneChildDir.capacity + 2) % 2 ^ 32 := by decide
  have hiterate : ∃ r, (spfsIterate (.calm 9) rootFile ⟨fun _ => true, 0, [], 0⟩).run (oneChildWorld shortName) =
      .ok r w' := by
    rw [spfsIterate, run_bind_of_ok (run_getInode_of hp)]
    dsimp only
    rw [hdots]
    dsimp only
    rw [if_neg (by simp), if_neg hmore, run_bind_of_ok hall]
    exact ⟨_, rfl⟩
  obtain ⟨r, hiterate⟩ := hiterate
  refine ⟨w', run_bind_of_ok hiterate, fun h => ?_⟩
  have hbefore : (oneChildWorld shortName).refs 5 = 1 := rfl
  have hafter := h 5
  rw [hrefs, hbefore] at hafter
  exact absurd hafter (by decide)

end OneChild

end Spfs
