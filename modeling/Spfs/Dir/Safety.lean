-- SUMMARY: Which directories spfs_for_all_children goes through to the end, without handing a null pointer to the callback.
import Spfs.Dir.Iterate
import Spfs.Namespace.Lookup

/-!
# Safe traversals

The loop over the blocks follows the pointers that the blocks hold, so it ends on a chain
that ends. An id that is not in the tree resolves to the null pointer, and the check for
error pointers lets it pass; so does an id whose record cannot be read. Only an id that is
in the cache never does.
-/

namespace Spfs

open EStateM (run_bind_of_ok run_bind_of_error)

/-! ## Callbacks -/

/-- The inode is in the cache, complete, and found there by its id. -/
def World.Holds (w : World) (id : ℕ) : Prop :=
  ∃ i, w.inodes id = some i ∧ i.isCached id = true ∧ i.iNew = false

/-- Nothing leaves the cache. -/
structure KeepsCache (w w' : World) : Prop where
  held : ∀ id, w.Holds id → w'.Holds id
  present : ∀ p, w.inodes p ≠ none → w'.inodes p ≠ none

instance : IsPreorder World KeepsCache where
  refl _ := ⟨fun _ h => h, fun _ h => h⟩
  trans _ _ _ h h' := ⟨fun id hid => h'.held id (h.held id hid), fun p hp => h'.present p (h.present p hp)⟩

theorem keepsCache_addEvent (w : World) (e : Event) : KeepsCache w (w.addEvent e) :=
  ⟨fun _ h => h, fun _ h => h⟩

section Objects

variable {w : World} {p : ℕ} {i j : SpfsInode}

/-- A change of an object that is not of the fields by which it is found. -/
theorem holds_setInode (hp : w.inodes p = some i) (hcached : j.isCached p = i.isCached p)
    (hnew : j.iNew = i.iNew) (id : ℕ) : (w.setInode p j).Holds id ↔ w.Holds id := by
  by_cases hne : id = p
  · subst hne
    rw [World.Holds, World.Holds, World.setInode_inodes, Function.update_self, hp]
    constructor
    · rintro ⟨k, hk, hin, hold⟩
      obtain rfl := Option.some.inj hk
      exact ⟨i, rfl, hcached.symm.trans hin, hnew.symm.trans hold⟩
    · rintro ⟨k, hk, hin, hold⟩
      obtain rfl := Option.some.inj hk
      exact ⟨j, rfl, hcached.trans hin, hnew.trans hold⟩
  · rw [World.Holds, World.Holds, World.setInode_inodes, Function.update_of_ne hne]

theorem keepsCache_setInode (hp : w.inodes p = some i) (hcached : j.isCached p = i.isCached p)
    (hnew : j.iNew = i.iNew) : KeepsCache w (w.setInode p j) := by
  refine ⟨fun id hid => (holds_setInode hp hcached hnew id).mpr hid, fun q hq => ?_⟩
  by_cases hne : q = p
  · rw [hne, World.setInode_inodes, Function.update_self]
    nofun
  · rw [World.setInode_inodes, Function.update_of_ne hne]
    exact hq

end Objects

section Callbacks

variable {γ : Type}

/-- The callback leaves the store alone and, given an inode of the cache, drops nothing from
the cache. What it does on the null pointer is its own affair. -/
structure Polite (f : ForAllCb γ) : Prop where
  store : KeepsStore f
  keeps : ∀ w closure id r w', w.Holds id → (f closure (some id)).run w = .ok r w' → KeepsCache w w'

/-- The callbacks of `spfs_iterate` and `spfs_lookup` only look. -/
theorem polite_spfsIterateCb : Polite spfsIterateCb where
  store := keepsStore_spfsIterateCb
  keeps _ closure id _ _ _ hrun := (within_spfsIterateCb closure (some id)).of_ok hrun

theorem polite_spfsInodeByNameCb (name : List UInt8) : Polite (spfsInodeByNameCb name) where
  store := keepsStore_spfsInodeByNameCb name
  keeps w closure id r w' _ hrun := by
    obtain ⟨i, w₁, hget, hrest⟩ := EStateM.run_bind_eq_ok.mp hrun
    rw [run_getInode] at hget
    split at hget <;> cases hget
    split at hrest <;> cases hrest <;> exact refl_of KeepsCache w

/-- The callback, with a fault on the null pointer. -/
def refuseNull (f : ForAllCb γ) : ForAllCb γ
  | _, none => throw .nullDeref
  | closure, some id => f closure (some id)

theorem keepsStore_refuseNull {f : ForAllCb γ} (h : KeepsStore f) : KeepsStore (refuseNull f) := by
  intro closure child
  cases child with
  | none => exact EStateM.Within.throw _
  | some id => exact h closure (some id)

/-- The callback that sees all children. -/
def stay : ForAllCb Unit := fun _ _ => return ((), true)

theorem polite_stay : Polite stay where
  store _ _ := EStateM.Within.pure _
  keeps w _ _ _ _ _ hrun := by
    cases hrun
    exact refl_of KeepsCache w

/-- A run of calls of the callback on inodes returned, with nothing dropped from the cache,
or it ended in a fault of the callback. -/
inductive EndsWell (f : ForAllCb γ) (w : World) {α : Type} : EStateM.Result Fault World α → Prop
  | returned {a : α} {w' : World} (h : KeepsCache w w') : EndsWell f w (.ok a w')
  | fault {closure : γ} {id : ℕ} {w₀ w' : World} {e : Fault} (h : (f closure (some id)).run w₀ = .error e w') :
      EndsWell f w (.error e w')

theorem EndsWell.of_kept {f : ForAllCb γ} {w w' : World} {α : Type} {x : EStateM.Result Fault World α}
    (hkept : KeepsCache w w') (h : EndsWell f w' x) : EndsWell f w x := by
  cases h with
  | returned h => exact .returned (trans_of KeepsCache hkept h)
  | fault h => exact .fault h

end Callbacks

/-- From some bound on the fuel on, whatever the environment does and whatever a polite
callback does, the traversal ends, and no differently than with a callback that faults on
the null pointer. -/
def SafeTraversal (p : ℕ) (w : World) : Prop :=
  ∃ n, ∀ env : Env, n ≤ env.fuel → ∀ (γ : Type) (f : ForAllCb γ) (closure : γ), Polite f →
    EndsWell f w ((spfsForAllChildren env f p closure).run w) ∧
      (spfsForAllChildren env (refuseNull f) p closure).run w = (spfsForAllChildren env f p closure).run w

/-! ## Chains that end -/

/-- From the sector on the chain of directory blocks ends, be it at a block that is none or
at one with fewer ids than it counts, and the ids that are taken from it are in the cache. -/
inductive ChainEnds (w : World) : ℕ → Prop
  | zero : ChainEnds w 0
  | stray {s : ℕ} (hs : s ≠ 0) (hmagic : dirMagic (w.disk s) ≠ spookyFsDirBlockMagic) : ChainEnds w s
  | block {s : ℕ} {header : DirBlock} (hs : s ≠ 0) (hdir : DirAt (w.disk s) header)
      (hheld : ∀ id ∈ (entriesFrom w.bSize (w.disk s) 12).take header.children, w.Holds id)
      (hnext : header.children ≤ (entriesFrom w.bSize (w.disk s) 12).length → ChainEnds w header.next) :
      ChainEnds w s

theorem ChainEnds.congr {w w' : World} {s : ℕ} (h : ChainEnds w s) (hdisk : w'.disk = w.disk)
    (hsize : w'.bSize = w.bSize) (hheld : ∀ id, w.Holds id → w'.Holds id) : ChainEnds w' s := by
  induction h with
  | zero => exact .zero
  | stray hs hmagic => exact .stray hs (by rwa [hdisk])
  | block hs hdir hids _ ih =>
    rw [← hdisk] at hdir
    rw [← hdisk, ← hsize] at hids ih
    exact .block hs hdir (fun id hid => hheld id (hids id hid)) ih

section Ends

variable {γ : Type} {f : ForAllCb γ} {w : World}

/-- Ids that are in the cache are visited one after the other. -/
theorem visitAll_of_held (env : Env) (hf : Polite f) {ids : List ℕ} (hids : ∀ id ∈ ids, w.Holds id)
    (closure : γ) :
    EndsWell f w ((visitAll env f ids closure).run w) ∧
      (visitAll env (refuseNull f) ids closure).run w = (visitAll env f ids closure).run w := by
  induction ids generalizing closure w with
  | nil => exact ⟨.returned (refl_of KeepsCache w), rfl⟩
  | cons id ids ih =>
    obtain ⟨i, hi, hcached, hnew⟩ := hids id List.mem_cons_self
    have hlookup := @run_spfsInodeById_cached env _ _ _ hi hcached hnew
    set w₁ := (w.setInode id { i with iCount := i.iCount + 1 }).addEvent (.iget id)
    have hkept₁ : KeepsCache w w₁ :=
      trans_of KeepsCache (keepsCache_setInode (j := { i with iCount := i.iCount + 1 }) hi rfl rfl)
        (keepsCache_addEvent _ _)
    rw [visitAll, visitAll, run_bind_of_ok hlookup, run_bind_of_ok hlookup]
    dsimp only
    cases hcall : (f closure (some id)).run w₁ with
    | error e w₂ =>
      have hcall' : (refuseNull f closure (some id)).run w₁ = .error e w₂ := hcall
      rw [run_bind_of_error hcall, run_bind_of_error hcall']
      exact ⟨.fault hcall, rfl⟩
    | ok r w₂ =>
      have hcall' : (refuseNull f closure (some id)).run w₁ = .ok r w₂ := hcall
      have hkept := trans_of KeepsCache hkept₁
        (hf.keeps w₁ closure id r w₂ (hkept₁.held id ⟨i, hi, hcached, hnew⟩) hcall)
      rw [run_bind_of_ok hcall, run_bind_of_ok hcall']
      obtain ⟨closure', more⟩ := r
      cases more with
      | false => exact ⟨.returned hkept, rfl⟩
      | true =>
        obtain ⟨hends, hsame⟩ :=
          ih (fun id' hid' => hkept.held id' (hids id' (List.mem_cons_of_mem id hid'))) closure'
        exact ⟨hends.of_kept hkept, hsame⟩

/-- With that much fuel the loop from a sector on ends well, and does not call back with the
null pointer. -/
def LitEnds (w : World) (start n : ℕ) : Prop :=
  ∀ (env : Env) (fuel : ℕ) (γ : Type) (f : ForAllCb γ) (closure : γ) (w' : World), n ≤ fuel → Polite f →
    SameStore w w' → KeepsCache w w' →
    EndsWell f w' ((spfsForAllChildrenLit env f fuel start closure).run w') ∧
      (spfsForAllChildrenLit env (refuseNull f) fuel start closure).run w' =
        (spfsForAllChildrenLit env f fuel start closure).run w'

/-- The loop over a chain that ends, with fuel for each of its blocks. -/
theorem ChainEnds.litEnds {start : ℕ} (h : ChainEnds w start) : ∃ n, LitEnds w start n := by
  induction h with
  | zero =>
    refine ⟨0, fun env fuel γ f closure w' _ _ _ _ => ?_⟩
    rw [spfsForAllChildrenLit_zero, spfsForAllChildrenLit_zero]
    exact ⟨.returned (refl_of KeepsCache w'), rfl⟩
  | @stray s hs hmagic =>
    refine ⟨1, fun env fuel γ f closure w' hfuel _ hstore _ => ?_⟩
    obtain ⟨m, rfl⟩ := Nat.exists_eq_succ_of_ne_zero (Nat.ne_of_gt hfuel)
    by_cases hio : env.ioOk w'.time s = true
    · rw [← hstore.disk] at hmagic
      rw [spfsForAllChildrenLit_stray hs hio hmagic, spfsForAllChildrenLit_stray hs hio hmagic]
      exact ⟨.returned (keepsCache_addEvent _ _), rfl⟩
    · have hio' := eq_false_of_ne_true hio
      rw [spfsForAllChildrenLit_unread hs hio', spfsForAllChildrenLit_unread hs hio']
      exact ⟨.returned (keepsCache_addEvent _ _), rfl⟩
  | @block s header hs hdir hheld hnext ih =>
    obtain ⟨n, hn⟩ : ∃ n, header.children ≤ (entriesFrom w.bSize (w.disk s) 12).length →
        LitEnds w header.next n := by
      by_cases hcount : header.children ≤ (entriesFrom w.bSize (w.disk s) 12).length
      · exact (ih hcount).imp fun n hn _ => hn
      · exact ⟨0, fun hle => absurd hle hcount⟩
    refine ⟨n + 1, fun env fuel γ f closure w' hfuel hf hstore hkept => ?_⟩
    obtain ⟨m, rfl⟩ := Nat.exists_eq_succ_of_ne_zero (Nat.ne_of_gt (Nat.lt_of_lt_of_le n.succ_pos hfuel))
    by_cases hio : env.ioOk w'.time s = true
    case neg =>
      have hio' := eq_false_of_ne_true hio
      rw [spfsForAllChildrenLit_unread hs hio', spfsForAllChildrenLit_unread hs hio']
      exact ⟨.returned (keepsCache_addEvent _ _), rfl⟩
    have hdir' : DirAt (w'.disk s) header := hstore.disk ▸ hdir
    have hheld' : ∀ id ∈ (entriesFrom w'.bSize (w'.disk s) 12).take header.children,
        (w'.addEvent (.bread s true)).Holds id := by
      rw [hstore.disk, hstore.bSize]
      exact fun id hid => hkept.held id (hheld id hid)
    have hcount : (entriesFrom w'.bSize (w'.disk s) 12).length = (entriesFrom w.bSize (w.disk s) 12).length := by
      rw [hstore.disk, hstore.bSize]
    obtain ⟨hends, hsame⟩ := visitAll_of_held env hf hheld' closure
    rw [spfsForAllChildrenLit_block hf.store hs hio hdir',
      spfsForAllChildrenLit_block (keepsStore_refuseNull hf.store) hs hio hdir']
    cases hvisit : (visitAll env f ((entriesFrom w'.bSize (w'.disk s) 12).take header.children) closure).run
        (w'.addEvent (.bread s true)) with
    | error e w₁ =>
      rw [hvisit] at hends hsame
      rw [run_bind_of_error hvisit, run_bind_of_error hsame]
      cases hends with
      | fault h => exact ⟨.fault h, rfl⟩
    | ok r w₁ =>
      have hstore₁ := (within_visitAll hf.store _ closure).of_ok hvisit
      rw [hvisit] at hends hsame
      rw [run_bind_of_ok hvisit, run_bind_of_ok hsame, hcount]
      cases hends with
      | returned hkept₁ =>
        have hstore₂ : SameStore w (w₁.addEvent (.brelse s)) :=
          trans_of SameStore (trans_of SameStore (trans_of SameStore hstore (IgnoresLog.addEvent w' _)) hstore₁)
            (IgnoresLog.addEvent w₁ _)
        have hkept₂ : KeepsCache w' (w₁.addEvent (.brelse s)) :=
          trans_of KeepsCache (trans_of KeepsCache (keepsCache_addEvent w' _) hkept₁) (keepsCache_addEvent w₁ _)
        obtain ⟨closure', more⟩ := r
        cases more with
        | false =>
          simp only [Bool.not_false, if_true]
          rw [run_bind_of_ok (run_brelse s w₁)]
          exact ⟨.returned hkept₂, trivial⟩
        | true =>
          by_cases hle : header.children ≤ (entriesFrom w.bSize (w.disk s) 12).length
          · obtain ⟨hrest, hrest'⟩ := hn hle env m γ f closure' (w₁.addEvent (.brelse s))
              (Nat.le_of_succ_le_succ hfuel) hf hstore₂ (trans_of KeepsCache hkept hkept₂)
            simp only [Bool.not_true, Bool.false_eq_true, if_false, if_pos hle]
            rw [run_bind_of_ok (run_brelse s w₁), run_bind_of_ok (run_brelse s w₁)]
            exact ⟨hrest.of_kept hkept₂, hrest'⟩
          · simp only [Bool.not_true, Bool.false_eq_true, if_false, if_neg hle]
            exact ⟨.returned (trans_of KeepsCache (keepsCache_addEvent w' _) hkept₁), trivial⟩

end Ends

/-! ## Traversals that are safe -/

section Converse

variable {w : World}

/-- An environment without faults but for the reads at one time. -/
def failsAt (n time : ℕ) : Env := { Env.calm (n + 1) with ioOk := fun t _ => t != time }

theorem failsAt_reads {n time t : ℕ} (h : t < time) (s : ℕ) : (failsAt n time).ioOk t s = true :=
  bne_iff_ne.mpr (Nat.ne_of_lt h)

/-- The lookup of an id that is not in the cache delivers the null pointer, if anything,
when the root of the tree cannot be read. -/
theorem spfsInodeById_unheld {id : ℕ} (h : ¬ w.Holds id) (n : ℕ) :
    ∃ time, w.time ≤ time ∧
      ∀ r w', (spfsInodeById (failsAt n time) id).run w = .ok r w' → r = .ok none := by
  cases hid : w.inodes id with
  | some i =>
    refine ⟨w.time, le_rfl, fun r w' hrun => ?_⟩
    rw [spfsInodeById] at hrun
    obtain ⟨obj, w₁, hget, -⟩ := EStateM.run_bind_eq_ok.mp hrun
    obtain ⟨hcached, hnew⟩ := igetLocked_present hid hget
    exact absurd ⟨i, hid, hcached, hnew⟩ h
  | none =>
    refine ⟨w.time + 1, Nat.le_succ _, fun r w' hrun => ?_⟩
    have hlookup : ∀ dest, ∃ res w₂, res ≠ 0 ∧ (spfsBtreeLookup (failsAt n (w.time + 1)) id dest).run
        (withNewObject w id w.time) = .ok (res, dest) w₂ := by
      intro dest
      by_cases hstart : (withNewObject w id w.time).sbi.tree.start = 0
      · exact ⟨1, _, by decide, spfsBtreeModify_empty hstart⟩
      · have hfuel : (failsAt n (w.time + 1)).fuel ≠ 0 := Nat.succ_ne_zero n
        obtain ⟨fuel, hstep⟩ := rootStep id dest spfsBtreeLookupCb hfuel hstart
        have hio : (failsAt n (w.time + 1)).ioOk (withNewObject w id w.time).time
            (withNewObject w id w.time).sbi.tree.start = false := bne_self_eq_false _
        rw [spfsBtreeLookup]
        generalize (spfsBtreeModify _ id dest spfsBtreeLookupCb).run (withNewObject w id w.time) = r at hstep ⊢
        cases hstep with
        | unread => exact ⟨- EIO, _, by decide, rfl⟩
        | stuck hread => rw [hio] at hread; cases hread
        | down hread => rw [hio] at hread; cases hread
        | hit hread => rw [hio] at hread; cases hread
    obtain ⟨w₁, hnull⟩ := run_spfsInodeById_absent hid rfl hlookup
    rw [hnull] at hrun
    exact (EStateM.Result.ok.inj hrun).1.symm

/-- The visit of ids that are in the cache by the callback that sees all of them, which the
environment has no part in. -/
theorem visitAll_stay {ids : List ℕ} (hids : ∀ id ∈ ids, w.Holds id) :
    ∃ w', (∀ env, (visitAll env (refuseNull stay) ids ()).run w = .ok ((), true) w') ∧ w.time ≤ w'.time ∧
      SameStore w w' ∧ ∀ id, w'.Holds id → w.Holds id := by
  induction ids generalizing w with
  | nil => exact ⟨w, fun _ => rfl, le_rfl, refl_of SameStore w, fun _ h => h⟩
  | cons id ids ih =>
    obtain ⟨i, hi, hcached, hnew⟩ := hids id List.mem_cons_self
    set w₁ := (w.setInode id { i with iCount := i.iCount + 1 }).addEvent (.iget id)
    have hsame (q : ℕ) : w₁.Holds q ↔ w.Holds q :=
      holds_setInode (j := { i with iCount := i.iCount + 1 }) hi rfl rfl q
    obtain ⟨w₂, hrun, htime, hstore, hback⟩ :=
      ih fun id' hid' => (hsame id').mpr (hids id' (List.mem_cons_of_mem id hid'))
    have hstore₁ : SameStore w w₁ := ⟨rfl, rfl, rfl⟩
    refine ⟨w₂, fun env => ?_, (Nat.le_succ w.time).trans htime, trans_of SameStore hstore₁ hstore,
      fun q hq => (hsame q).mp (hback q hq)⟩
    rw [visitAll, run_bind_of_ok (run_spfsInodeById_cached hi hcached hnew)]
    exact hrun env

/-- An id that is not in the cache is handed on as the null pointer when the root of the
tree cannot be read. -/
theorem visitAll_unheld {ids : List ℕ} (h : ¬ ∀ id ∈ ids, w.Holds id) (n : ℕ) :
    ∃ time, w.time ≤ time ∧
      ∀ r w', (visitAll (failsAt n time) (refuseNull stay) ids ()).run w ≠ .ok r w' := by
  induction ids generalizing w with
  | nil => exact absurd nofun h
  | cons id ids ih =>
    by_cases hid : w.Holds id
    · obtain ⟨i, hi, hcached, hnew⟩ := hid
      set w₁ := (w.setInode id { i with iCount := i.iCount + 1 }).addEvent (.iget id)
      have hsame (q : ℕ) : w₁.Holds q ↔ w.Holds q :=
        holds_setInode (j := { i with iCount := i.iCount + 1 }) hi rfl rfl q
      have htail : ¬ ∀ id' ∈ ids, w₁.Holds id' := fun hall =>
        h (List.forall_mem_cons.mpr ⟨⟨i, hi, hcached, hnew⟩, fun id' hid' => (hsame id').mp (hall id' hid')⟩)
      obtain ⟨time, htime, hno⟩ := ih htail
      refine ⟨time, (Nat.le_succ w.time).trans htime, fun r w' hrun => hno r w' ?_⟩
      rw [visitAll, run_bind_of_ok (run_spfsInodeById_cached hi hcached hnew)] at hrun
      exact hrun
    · obtain ⟨time, htime, hnull⟩ := spfsInodeById_unheld hid n
      refine ⟨time, htime, fun r w' hrun => ?_⟩
      obtain ⟨found, w₁, hlookup, hrest⟩ := EStateM.run_bind_eq_ok.mp hrun
      obtain rfl := hnull found w₁ hlookup
      cases hrest

/-- When the loop returns whatever read fails, its chain ends. -/
theorem chainEnds_of_returns {n fuel start : ℕ} (h : ∀ time, w.time < time → ∃ r w',
    (spfsForAllChildrenLit (failsAt n time) (refuseNull stay) fuel start ()).run w = .ok r w') :
    ChainEnds w start := by
  have hkeeps := keepsStore_refuseNull polite_stay.store
  induction fuel generalizing start w with
  | zero =>
    cases start with
    | zero => exact .zero
    | succ start =>
      obtain ⟨r, w', hrun⟩ := h (w.time + 1) (Nat.lt_succ_self _)
      cases hrun
  | succ fuel ih =>
    by_cases hs : start = 0
    · rw [hs]
      exact .zero
    by_cases hmagic : dirMagic (w.disk start) = spookyFsDirBlockMagic
    case neg => exact .stray hs hmagic
    have hdir : DirAt (w.disk start) (parsedDir (w.disk start)) := ⟨hmagic, rfl⟩
    have hblock {time : ℕ} (ht : w.time < time) :=
      spfsForAllChildrenLit_block (n := fuel) hkeeps hs (failsAt_reads (n := n) ht start) hdir ()
    have hheld : ∀ id ∈ (entriesFrom w.bSize (w.disk start) 12).take (parsedDir (w.disk start)).children,
        (w.addEvent (.bread start true)).Holds id := by
      by_contra hnot
      obtain ⟨time, htime, hno⟩ := visitAll_unheld hnot n
      have ht : w.time < time := htime
      obtain ⟨r, w', hrun⟩ := h time ht
      rw [hblock ht] at hrun
      obtain ⟨r', w₁, hvisit, -⟩ := EStateM.run_bind_eq_ok.mp hrun
      exact hno r' w₁ hvisit
    refine .block hs hdir hheld fun hcount => ?_
    obtain ⟨w₁, hvisit, htime, hstore, hback⟩ := visitAll_stay hheld
    have hafter : ChainEnds (w₁.addEvent (.brelse start)) (parsedDir (w.disk start)).next := by
      refine ih fun time ht => ?_
      have ht₀ : w.time < time := lt_trans (Nat.lt_of_succ_le htime) (lt_trans (Nat.lt_succ_self _) ht)
      obtain ⟨r, w', hrun⟩ := h time ht₀
      rw [hblock ht₀, run_bind_of_ok (hvisit _)] at hrun
      simp only [Bool.not_true, Bool.false_eq_true, if_false, if_pos hcount] at hrun
      exact ⟨r, w', hrun⟩
    exact hafter.congr hstore.disk.symm hstore.bSize.symm hback

/-! ## Directories -/

variable {p : ℕ} {i : SpfsInode}

/-- The traversal of a directory that is safe for the callback that sees all children. -/
theorem SafeTraversal.ends (h : SafeTraversal p w) (hp : w.inodes p = some i) :
    i.iSb = .sb ∧ (sIsDir i.iMode = true → i.lock = false ∧ ChainEnds w i.start) := by
  obtain ⟨n, hsafe⟩ := h
  have hreturns (time : ℕ) :
      ∃ r w', (spfsForAllChildren (failsAt n time) (refuseNull stay) p ()).run w = .ok r w' := by
    obtain ⟨hends, hsame⟩ := hsafe (failsAt n time) (Nat.le_succ n) Unit stay () polite_stay
    rw [hsame]
    generalize (spfsForAllChildren (failsAt n time) stay p ()).run w = x at hends
    cases hends with
    | returned => exact ⟨_, _, rfl⟩
    | fault h => cases h
  have hsb : i.iSb = .sb := by
    obtain ⟨r, w', hrun⟩ := hreturns 0
    rw [spfsForAllChildren, run_bind_of_ok (run_getInode_of hp)] at hrun
    obtain ⟨_, w₁, hsuper, -⟩ := EStateM.run_bind_eq_ok.mp hrun
    obtain ⟨_, w₂, -, hfollow⟩ := EStateM.run_bind_eq_ok.mp hsuper
    exact (followSb_same hfollow).2.2
  refine ⟨hsb, fun hmode => ?_⟩
  have hlocks (time : ℕ) : ∃ r w', (do
      mutexLock p
      let r ← spfsForAllChildrenLit (failsAt n time) (refuseNull stay) (n + 1) i.start ()
      mutexUnlock p
      return r : Kernel (ℤ × Unit)).run w = .ok r w' := by
    obtain ⟨r, w', hrun⟩ := hreturns time
    rw [spfsForAllChildren, run_bind_of_ok (run_getInode_of hp), run_bind_of_ok (run_superOf hsb w),
      if_neg (by simp [hmode])] at hrun
    exact ⟨r, w', hrun⟩
  have hlock : i.lock = false := by
    by_contra hheld
    obtain ⟨r, w', hrun⟩ := hlocks 0
    rw [run_bind_of_error (run_mutexLock_held hp (eq_true_of_ne_false hheld))] at hrun
    cases hrun
  have hlocked := run_mutexLock_of hp hlock
  set w₁ := (w.setInode p { i with lock := true }).addEvent (.lock p)
  have hafter : ChainEnds w₁ i.start := by
    have hlit (time : ℕ) (_ : w₁.time < time) : ∃ r w',
        (spfsForAllChildrenLit (failsAt n time) (refuseNull stay) (n + 1) i.start ()).run w₁ = .ok r w' := by
      obtain ⟨r, w', hrun⟩ := hlocks time
      rw [run_bind_of_ok hlocked] at hrun
      obtain ⟨r', w₂, hlit, -⟩ := EStateM.run_bind_eq_ok.mp hrun
      exact ⟨r', w₂, hlit⟩
    exact chainEnds_of_returns hlit
  refine ⟨hlock, hafter.congr rfl rfl fun id hid => ?_⟩
  exact (holds_setInode (j := { i with lock := true }) hp rfl rfl id).mp hid

theorem SafeTraversal.of_ends (hp : w.inodes p = some i) (hsb : i.iSb = .sb)
    (hends : sIsDir i.iMode = true → i.lock = false ∧ ChainEnds w i.start) : SafeTraversal p w := by
  by_cases hmode : sIsDir i.iMode = true
  · obtain ⟨hlock, hchain⟩ := hends hmode
    obtain ⟨n, hn⟩ := hchain.litEnds
    refine ⟨n, fun env hfuel γ f closure hf => ?_⟩
    have hlocked := run_mutexLock_of hp hlock
    set w₁ := (w.setInode p { i with lock := true }).addEvent (.lock p)
    have hkept : KeepsCache w w₁ := trans_of KeepsCache
      (keepsCache_setInode (j := { i with lock := true }) hp rfl rfl) (keepsCache_addEvent _ _)
    obtain ⟨hends, hsame⟩ := hn env env.fuel γ f closure w₁ hfuel hf ⟨rfl, rfl, rfl⟩ hkept
    have hrun (g : ForAllCb γ) : (spfsForAllChildren env g p closure).run w = (do
        let r ← spfsForAllChildrenLit env g env.fuel i.start closure
        mutexUnlock p
        return r : Kernel (ℤ × γ)).run w₁ := by
      rw [spfsForAllChildren, run_bind_of_ok (run_getInode_of hp), run_bind_of_ok (run_superOf hsb w),
        if_neg (by simp [hmode]), run_bind_of_ok hlocked]
    rw [hrun, hrun]
    cases hlit : (spfsForAllChildrenLit env f env.fuel i.start closure).run w₁ with
    | error e w₂ =>
      rw [hlit] at hends hsame
      rw [run_bind_of_error hlit, run_bind_of_error hsame]
      cases hends with
      | fault h => exact ⟨.fault h, rfl⟩
    | ok r w₂ =>
      rw [hlit] at hends hsame
      rw [run_bind_of_ok hlit, run_bind_of_ok hsame]
      cases hends with
      | returned hkept₂ =>
        have hkept' := trans_of KeepsCache hkept hkept₂
        obtain ⟨j, hj⟩ := Option.ne_none_iff_exists'.mp
          (hkept'.present p (by rw [hp]; exact Option.some_ne_none i))
        rw [run_bind_of_ok (run_mutexUnlock_of hj)]
        refine ⟨.returned ?_, rfl⟩
        exact trans_of KeepsCache hkept' (trans_of KeepsCache
          (keepsCache_setInode (j := { j with lock := false }) hj rfl rfl) (keepsCache_addEvent _ _))
  · have hrun (env : Env) (γ : Type) (g : ForAllCb γ) (closure : γ) :
        (spfsForAllChildren env g p closure).run w = .ok (-EINVAL, closure) w := by
      rw [spfsForAllChildren, run_bind_of_ok (run_getInode_of hp), run_bind_of_ok (run_superOf hsb w),
        if_pos (by simp [hmode])]
      rfl
    refine ⟨0, fun env _ γ f closure _ => ?_⟩
    rw [hrun, hrun]
    exact ⟨.returned (refl_of KeepsCache w), rfl⟩

end Converse

def blockDir : SpfsInode := { plainDir 1 with start := 50, capacity := 1 }

/-- A directory with one block. -/
def blockWorld (b : Block) : World := (freshWorld.setBlock 50 b).setInode 1 blockDir

/-- The only id is 5. -/
def danglingBlock : Block := (withDir ⟨0, 1⟩ fun _ => 0).write 12 (beEncode 4 5)

/-- The next block is block 50. -/
def loopBlock : Block := withDir ⟨50, 0⟩ fun _ => 0

theorem blockWorld_disk (b : Block) : (blockWorld b).disk 50 = b := by
  rw [blockWorld, World.setInode_disk, World.setBlock_disk, Function.update_self]

theorem blockWorld_inode (b : Block) : (blockWorld b).inodes 1 = some blockDir := by
  rw [blockWorld, World.setInode_inodes, Function.update_self]

theorem not_chainEnds_dangling : ¬ ChainEnds (blockWorld danglingBlock) 50 := by
  have hdir : DirAt ((blockWorld danglingBlock).disk 50) ⟨0, 1⟩ := by
    rw [blockWorld_disk]
    exact (dirAt_withDir _ (by decide) (by decide)).write le_rfl _
  have hid : beDecode (danglingBlock.read 12 4) = 5 := by
    rw [danglingBlock, Block.read_write_same (length_beEncode 4 5)]
    decide
  have hentries : entriesFrom (blockWorld danglingBlock).bSize ((blockWorld danglingBlock).disk 50) 12 =
      5 :: entriesFrom 4096 danglingBlock 16 := by
    have hbSize : (blockWorld danglingBlock).bSize = 4096 := rfl
    rw [hbSize, blockWorld_disk, entriesFrom_of_ne_zero (by decide) (by rw [hid]; decide), hid]
  intro h
  cases h with
  | stray _ hmagic => exact hmagic hdir.magic
  | block _ hdir' hheld =>
    obtain rfl := hdir.eq.symm.trans hdir'.eq
    rw [hentries] at hheld
    obtain ⟨i, hi, -⟩ := hheld 5 List.mem_cons_self
    cases hi

theorem not_chainEnds_loop : ¬ ChainEnds (blockWorld loopBlock) 50 := by
  have hdir : DirAt ((blockWorld loopBlock).disk 50) ⟨50, 0⟩ := by
    rw [blockWorld_disk]
    exact dirAt_withDir _ (by decide) (by decide)
  have hnever {s : ℕ} (h : ChainEnds (blockWorld loopBlock) s) : s ≠ 50 := by
    induction h with
    | zero => decide
    | stray _ hmagic =>
      rintro rfl
      exact hmagic hdir.magic
    | block _ hdir' _ _ ih =>
      rintro rfl
      obtain rfl := hdir.eq.symm.trans hdir'.eq
      exact ih (Nat.zero_le _) rfl
  exact fun h => hnever h rfl

end Spfs
