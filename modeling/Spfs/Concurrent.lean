-- SUMMARY: Concurrent calls of the allocator and of the inode number counter, statement by statement, under any schedule.
import Spfs.FreeList.Safety
import Spfs.Lib.Mutex
import Spfs.Vfs.Reading

/-!
# Concurrent calls

`spfs_free_alloc` and the first lines of `spfs_new_inode` are the two critical
sections of a few statements in which the state they share is that of the super
block. Here they are taken apart into accesses to it, so that calls of many
threads interleave. Either comes to what its definition for a single thread says,
and with the mutex around it any schedule amounts to a sequence of such calls.
-/

namespace Spfs

open EStateM (Within run_bind_of_ok run_bind_eq_ok)
open Mutex

/-! ## The allocator -/

/-- The statements of `spfs_free_alloc` between lock and unlock; `i` is where the
pointer `list` points, counted in nodes from the root. A `-=` is a load and a store. -/
inductive AllocStmt where
  /-- `if (free_list->blocks > blocks)` -/
  | total
  /-- `Lit:` -/
  | lit (i : ℕ)
  /-- `list->blocks -= blocks` -/
  | loadNode (i : ℕ)
  | storeNode (i v : ℕ)
  /-- `free_list->blocks -= blocks` -/
  | loadTotal (i : ℕ)
  | storeTotal (i v : ℕ)
  /-- `result = list->start + list->blocks` -/
  | result (i : ℕ)
deriving DecidableEq, Repr

/-- `v -= n` on a `uint32_t` wraps. -/
def u32Sub (v n : ℕ) : ℕ := if n ≤ v then v - n else (2 ^ 32 - (n - v) % 2 ^ 32) % 2 ^ 32

/-- The node `list` points to. -/
def FreeList.node (fl : FreeList) (i : ℕ) : FreeNode := fl.root.getD i ⟨0, 0⟩

/-- One statement of `spfs_free_alloc(free_list, blocks)`: the next one, or the result. -/
def allocStmt (blocks : ℕ) : AllocStmt → FreeList → (AllocStmt ⊕ ℕ) × FreeList
  | .total, fl => if fl.blocks > blocks then (.inl (.lit 0), fl) else (.inr 0, fl)
  | .lit i, fl =>
    if i < fl.root.length then
      if (fl.node i).blocks ≥ blocks then (.inl (.loadNode i), fl) else (.inl (.lit (i + 1)), fl)
    else
      (.inr 0, fl)
  | .loadNode i, fl => (.inl (.storeNode i (fl.node i).blocks), fl)
  | .storeNode i v, fl =>
    (.inl (.loadTotal i),
      { fl with root := fl.root.set i { fl.node i with blocks := u32Sub v blocks } })
  | .loadTotal i, fl => (.inl (.storeTotal i fl.blocks), fl)
  | .storeTotal i v, fl => (.inl (.result i), { fl with blocks := u32Sub v blocks })
  | .result i, fl => (.inr ((fl.node i).start + (fl.node i).blocks), fl)

/-- A bound on the statements that are left. -/
def AllocStmt.rank (fl : FreeList) : AllocStmt → ℕ
  | .total => fl.root.length + 7
  | .lit i => fl.root.length - i + 6
  | .loadNode _ => 5
  | .storeNode _ _ => 4
  | .loadTotal _ => 3
  | .storeTotal _ _ => 2
  | .result _ => 1

theorem allocStmt_rank {blocks : ℕ} {a a' : AllocStmt} {fl fl' : FreeList}
    (h : allocStmt blocks a fl = (.inl a', fl')) : a'.rank fl' < a.rank fl := by
  cases a with
  | total =>
    rw [allocStmt] at h
    split at h <;> cases h
    simp [AllocStmt.rank]
  | lit i =>
    rw [allocStmt] at h
    split at h
    · split at h <;> cases h
      · simp only [AllocStmt.rank]
        omega
      · simp only [AllocStmt.rank]
        omega
    · cases h
  | loadNode | storeNode | loadTotal | storeTotal =>
    cases h
    simp [AllocStmt.rank]
  | result => cases h

/-- The critical section of `spfs_free_alloc`. The locals are the parameter `blocks`
and the statement to come. -/
def allocSection : CriticalSection FreeList (ℕ × AllocStmt) ℕ where
  step a fl := ((allocStmt a.1 a.2 fl).1.map (a.1, ·) id, (allocStmt a.1 a.2 fl).2)
  rank a fl := a.2.rank fl
  rank_lt a fl a' fl' h := by
    obtain ⟨hnext, rfl⟩ := Prod.mk.inj h
    rcases hstmt : allocStmt a.1 a.2 fl with ⟨next | r, fl'⟩
    · rw [hstmt] at hnext
      cases hnext
      exact allocStmt_rank hstmt
    · rw [hstmt] at hnext
      cases hnext

section Eval

variable {n r : ℕ} {a a' : AllocStmt} {fl fl' : FreeList}

theorem eval_allocStmt (h : allocStmt n a fl = (.inl a', fl')) :
    allocSection.eval (n, a) fl = allocSection.eval (n, a') fl' :=
  CriticalSection.eval_of_inl (by simp [allocSection, h])

theorem eval_allocStmt_last (h : allocStmt n a fl = (.inr r, fl')) :
    allocSection.eval (n, a) fl = (r, fl') :=
  CriticalSection.eval_of_inr (by simp [allocSection, h])

/-- The statements that take the blocks off the node found and off the total. -/
theorem eval_loadNode {pre l : List FreeNode} {node : FreeNode} {total : ℕ}
    (hn : n ≤ node.blocks) (htotal : n ≤ total) :
    allocSection.eval (n, .loadNode pre.length) ⟨total, pre ++ node :: l⟩ =
      (node.start + (node.blocks - n),
        ⟨total - n, pre ++ { node with blocks := node.blocks - n } :: l⟩) := by
  have hnode : FreeList.node ⟨total, pre ++ node :: l⟩ pre.length = node := by
    simp [FreeList.node]
  have hstore : (pre ++ node :: l).set pre.length { node with blocks := node.blocks - n } =
      pre ++ { node with blocks := node.blocks - n } :: l := by
    simp
  rw [eval_allocStmt rfl, hnode, eval_allocStmt rfl, hnode, u32Sub, if_pos hn, hstore,
    eval_allocStmt rfl, eval_allocStmt rfl, u32Sub, if_pos htotal, eval_allocStmt_last rfl]
  simp [FreeList.node]

/-- The loop from the nodes `l` on, those before them in the list being too short. -/
theorem eval_lit (pre l : List FreeNode) {total : ℕ} (htotal : n < total) :
    allocSection.eval (n, .lit pre.length) ⟨total, pre ++ l⟩ =
      ((allocLit n l).map fun found => (found.1, ⟨total - n, pre ++ found.2⟩)).getD
        (0, ⟨total, pre ++ l⟩) := by
  induction l generalizing pre with
  | nil =>
    refine eval_allocStmt_last ?_
    simp [allocStmt]
  | cons node l ih =>
    have hin : pre.length < (pre ++ node :: l).length := by simp
    have hnode : FreeList.node ⟨total, pre ++ node :: l⟩ pre.length = node := by
      simp [FreeList.node]
    by_cases hn : node.blocks ≥ n
    · rw [eval_allocStmt (by rw [allocStmt, if_pos hin, hnode, if_pos hn]),
        eval_loadNode hn htotal.le, allocLit, if_pos hn]
      rfl
    · rw [eval_allocStmt (by rw [allocStmt, if_pos hin, hnode, if_neg hn]), allocLit, if_neg hn]
      have := ih (pre ++ [node])
      rw [List.length_append, List.length_singleton, List.append_assoc] at this
      simp only [List.cons_append, List.nil_append] at this
      rw [this]
      rcases allocLit n l with _ | ⟨result, l'⟩
      · rfl
      · simp

/-- Alone, the statements do what `spfsFreeAlloc` says. -/
theorem eval_alloc (n : ℕ) (fl : FreeList) :
    allocSection.eval (n, .total) fl = spfsFreeAlloc fl n := by
  unfold spfsFreeAlloc
  split
  · rename_i hn
    rw [eval_allocStmt (by rw [allocStmt, if_pos hn])]
    have := eval_lit [] fl.root hn
    simp only [List.length_nil, List.nil_append] at this
    rw [this]
    rcases allocLit n fl.root with _ | ⟨result, root⟩ <;> rfl
  · rename_i hn
    exact eval_allocStmt_last (by rw [allocStmt, if_neg hn])

end Eval

section Allocs

variable {ι : Type*} (blocks : ι → ℕ) (fl₀ : FreeList)

/-- Call `i` asks for `blocks i` blocks. -/
def enterAlloc (i : ι) : ℕ × AllocStmt := (blocks i, .total)

/-- What the calls of a history, latest first, asked for and were given. -/
def granted (history : List (ι × ℕ)) : List (ℕ × ℕ) := history.map fun g => (g.2, blocks g.1)

/-- The requests of a history in the order of the calls. -/
def requests (history : List (ι × ℕ)) : List ℕ := (history.map fun g => blocks g.1).reverse

theorem serial_alloc (order : List ι) :
    allocRun fl₀ (order.map blocks).reverse =
      (granted blocks (allocSection.serial (enterAlloc blocks) fl₀ order).1,
        (allocSection.serial (enterAlloc blocks) fl₀ order).2) := by
  induction order with
  | nil => rfl
  | cons i order ih =>
    rw [List.map_cons, List.reverse_cons, allocRun_concat, ih, allocStep, CriticalSection.serial,
      enterAlloc, eval_alloc]
    rfl

variable [DecidableEq ι]

/-- The calls after the moves of a schedule. -/
def allocSys (sched : List ι) : Sys ι FreeList (ℕ × AllocStmt) ℕ :=
  Sys.run allocSection (enterAlloc blocks) fl₀ sched

theorem allocSys_serial (sched : List ι) :
    Serial allocSection (enterAlloc blocks) fl₀ (allocSys blocks fl₀ sched) := Serial.run sched

end Allocs

section History

variable {ι : Type*} {blocks : ι → ℕ} {fl₀ : FreeList} {st : Sys ι FreeList (ℕ × AllocStmt) ℕ}

/-- The calls of a serial history got what a single thread would have got. -/
theorem granted_of_serial (h : Serial allocSection (enterAlloc blocks) fl₀ st) :
    granted blocks st.history = (allocRun fl₀ (requests blocks st.history)).1 := by
  have hrun := serial_alloc blocks fl₀ (st.history.map Prod.fst)
  rw [List.map_map] at hrun
  have hfst := congrArg Prod.fst hrun
  rw [← h.history] at hfst
  exact hfst.symm

theorem shared_of_serial (h : Serial allocSection (enterAlloc blocks) fl₀ st)
    (hfree : st.owner = none) :
    st.shared = (allocRun fl₀ (requests blocks st.history)).2 := by
  have hrun := serial_alloc blocks fl₀ (st.history.map Prod.fst)
  rw [List.map_map] at hrun
  exact (h.free hfree).trans (congrArg Prod.snd hrun).symm

end History

/-- However the statements of any number of calls of `spfs_free_alloc` interleave, the
calls that have returned got, in the order in which they gave the mutex back, what one
thread making them in that order gets. No two of them were given a common block,
all they were given was free at first, and whenever nobody holds the mutex nothing
is lost. -/
theorem spfsFreeAlloc_concurrent {ι : Type*} [DecidableEq ι] {fl₀ : FreeList}
    (hd : DisjointNodes fl₀.root) (hstart : ∀ node ∈ fl₀.root, 1 ≤ node.start)
    (hc : fl₀.CounterOk) (blocks : ι → ℕ) (sched : List ι) :
    let st := allocSys blocks fl₀ sched
    let given := granted blocks st.history
    (∀ i r, st.pc i = .returned r ↔ (i, r) ∈ st.history) ∧
      given = (allocRun fl₀ (requests blocks st.history)).1 ∧
      ((successful given).map grantRange).Pairwise Disjoint ∧
      (∀ g ∈ (successful given).map grantRange, g ⊆ region fl₀.root) ∧
      (st.owner = none → st.shared = (allocRun fl₀ (requests blocks st.history)).2 ∧
        AllocInv fl₀ given st.shared) := by
  have hserial := allocSys_serial blocks fl₀ sched
  have hgiven := granted_of_serial hserial
  have hinv := AllocInv.run_requests hd hstart hc (requests blocks (allocSys blocks fl₀ sched).history)
  have hdisj := allocRun_disjoint hd hstart hc (requests blocks (allocSys blocks fl₀ sched).history)
  refine ⟨hserial.returned, hgiven, ?_, ?_, fun hfree => ⟨shared_of_serial hserial hfree, ?_⟩⟩
  · rw [hgiven]
    exact hdisj.1
  · rw [hgiven]
    exact hdisj.2
  · rw [hgiven, shared_of_serial hserial hfree]
    exact hinv

/-- Two calls, of which the second is kept waiting while the first takes its blocks. -/
theorem spfsFreeAlloc_concurrent_two :
    let st := allocSys (fun second : Bool => if second then 4 else 3) ⟨100, [⟨2, 100⟩]⟩
      ([false, true, false, false, true] ++ List.replicate 8 false ++ List.replicate 10 true)
    st.history = [(true, 95), (false, 99)] ∧
      ((successful (granted (fun second : Bool => if second then 4 else 3) st.history)).map
        grantRange).Pairwise Disjoint := by
  refine ⟨by decide, ?_⟩
  refine (spfsFreeAlloc_concurrent ?_ ?_ ?_ _ _).2.2.1
  · exact List.pairwise_singleton _ _
  · simp
  · rfl

/-- Under a fair schedule none of finitely many calls starves: all return, and together
they have done what one thread does that makes them in some order. -/
theorem spfsFreeAlloc_fair {ι : Type*} [Finite ι] [DecidableEq ι] (fl₀ : FreeList) (blocks : ι → ℕ)
    {f : ℕ → ι} (hfair : Fair f) :
    ∃ order : List ι, order.Nodup ∧ (∀ i, i ∈ order) ∧ ∃ n, ∀ m, n ≤ m →
      let st := Sys.after allocSection (enterAlloc blocks) fl₀ f m
      st.AllReturned ∧ st.history.map Prod.fst = order.reverse ∧
        (granted blocks st.history, st.shared) = allocRun fl₀ (order.map blocks) := by
  have hreturn : ∃ n, ∀ m, n ≤ m → (Sys.after allocSection (enterAlloc blocks) fl₀ f m).AllReturned :=
    hfair.all_return
  obtain ⟨n, hn⟩ := hreturn
  have hserial : Serial allocSection (enterAlloc blocks) fl₀
      (Sys.after allocSection (enterAlloc blocks) fl₀ f n) := Serial.run _
  have hall := hn n le_rfl
  refine ⟨((Sys.after allocSection (enterAlloc blocks) fl₀ f n).history.map Prod.fst).reverse,
    List.nodup_reverse.mpr hserial.nodup, fun i => ?_, n, fun m hm => ?_⟩
  · obtain ⟨r, hr⟩ := hall i
    rw [List.mem_reverse]
    exact List.mem_map_of_mem (f := Prod.fst) ((hserial.returned i r).mp hr)
  · have hfree : (Sys.after allocSection (enterAlloc blocks) fl₀ f n).owner = none := by
      by_contra hne
      obtain ⟨i, hi⟩ := Option.ne_none_iff_exists'.mp hne
      obtain ⟨r, hr⟩ := hall i
      simpa [hr, Pc.Continues] using hserial.held i hi
    rw [hall.after hm]
    refine ⟨hall, (List.reverse_reverse _).symm, ?_⟩
    rw [granted_of_serial hserial, shared_of_serial hserial hfree, requests, List.map_reverse,
      List.map_map]
    rfl

theorem fair_alternating : Fair fun n : ℕ => decide (n % 2 = 1) := by
  intro second n
  cases second with
  | false => exact ⟨2 * n, by omega, by simp⟩
  | true => exact ⟨2 * n + 1, by omega, by simp⟩

/-- Two calls that take turns, for more blocks than there are. -/
theorem spfsFreeAlloc_fair_two :
    ∃ n, ∀ m, n ≤ m → (Sys.after allocSection (enterAlloc fun second : Bool => if second then 60 else 50)
      ⟨100, [⟨2, 100⟩]⟩ (fun n => decide (n % 2 = 1)) m).AllReturned := by
  obtain ⟨_, -, -, n, hn⟩ := spfsFreeAlloc_fair ⟨100, [⟨2, 100⟩]⟩ (fun second : Bool => if second then 60 else 50)
    fair_alternating
  exact ⟨n, fun m hm => (hn m hm).1⟩

/-! ## The number of the next inode -/

/-- `needle = sbi->id++` between lock and unlock: a load, and a store of the number after it. -/
inductive IdStmt where
  | load
  | store (needle : ℕ)
deriving DecidableEq, Repr

/-- An access to `sbi->id`. The number is an `unsigned long`. -/
def idStmt : IdStmt → ℕ → (IdStmt ⊕ ℕ) × ℕ
  | .load, id => (.inl (.store id), id)
  | .store needle, _ => (.inr needle, (needle + 1) % 2 ^ 64)

def IdStmt.rank : IdStmt → ℕ
  | .load => 1
  | .store _ => 0

/-- The critical section of `spfs_new_inode`. -/
def idSection : CriticalSection ℕ IdStmt ℕ where
  step := idStmt
  rank a _ := a.rank
  rank_lt a id a' id' h := by
    cases a with
    | load =>
      cases h
      exact Nat.one_pos
    | store needle => cases h

theorem eval_id (id : ℕ) : idSection.eval .load id = (id, (id + 1) % 2 ^ 64) := by
  have hload : idSection.step .load id = (.inl (.store id), id) := rfl
  have hstore : idSection.step (.store id) id = (.inr id, (id + 1) % 2 ^ 64) := rfl
  rw [CriticalSection.eval_of_inl hload, CriticalSection.eval_of_inr hstore]

section NewInode

variable {env : Env} {parent : Option ℕ} {mode : ℕ} {w w' : World}

theorem final_id_of_sameStore {α : Type} {m : Kernel α} (h : Within SameStore m) (w : World) :
    (m.run w).final.sbi.id = w.sbi.id :=
  congrArg SuperBlock.id (h w).sbi

theorem setUpNewInode_returns {p : ℕ} {r : Except ℤ ℕ} (h : (setUpNewInode env p).run w = .ok r w') :
    r = .ok p := by
  obtain ⟨_, w₁, -, h₁⟩ := run_bind_eq_ok.mp h
  obtain ⟨_, w₂, -, h₂⟩ := run_bind_eq_ok.mp h₁
  obtain ⟨_, w₃, -, h₃⟩ := run_bind_eq_ok.mp h₂
  obtain ⟨_, w₄, -, h₄⟩ := run_bind_eq_ok.mp h₃
  cases h₄
  rfl

/-- `spfs_new_inode` starts with that section: whatever becomes of the call, the counter is
left as the section leaves it. -/
theorem spfsNewInode_counts (env : Env) (parent : Option ℕ) (mode : ℕ) (w : World) :
    ((spfsNewInode env parent mode).run w).final.sbi.id = (idSection.eval .load w.sbi.id).2 := by
  have hset : (modify (·.setId ((w.sbi.id + 1) % 2 ^ 64)) : Kernel Unit).run w =
      .ok () (w.setId ((w.sbi.id + 1) % 2 ^ 64)) := rfl
  rw [spfsNewInode, run_bind_of_ok (EStateM.run_get w), run_bind_of_ok hset, eval_id]
  refine final_id_of_sameStore ?_ _
  refine (igetLocked_reading env _).bind fun obj => ?_
  cases obj with
  | none => exact Within.pure _
  | some p =>
    refine (within_getInode p).bind fun i => Within.ite (fun _ => ?_) fun _ => ?_
    · cases parent with
      | none => exact (modifyInode_reading p _).bind fun _ => setUpNewInode_reading env p
      | some parent =>
        exact (within_getInode parent).bind fun dir =>
          (modifyInode_reading p _).bind fun _ => setUpNewInode_reading env p
    · exact (igetFailed_reading env p).bind fun _ => Within.pure _

/-- An inode that is returned has the number that was taken. -/
theorem spfsNewInode_number {p : ℕ} (h : (spfsNewInode env parent mode).run w = .ok (.ok p) w') :
    p = (idSection.eval .load w.sbi.id).1 := by
  have hset : (modify (·.setId ((w.sbi.id + 1) % 2 ^ 64)) : Kernel Unit).run w =
      .ok () (w.setId ((w.sbi.id + 1) % 2 ^ 64)) := rfl
  rw [spfsNewInode, run_bind_of_ok (EStateM.run_get w), run_bind_of_ok hset] at h
  rw [eval_id]
  obtain ⟨obj, w₁, hget, h₁⟩ := run_bind_eq_ok.mp h
  cases obj with
  | none => cases h₁
  | some q =>
    obtain rfl := igetLocked_pointer env hget
    obtain ⟨i, w₂, -, h₂⟩ := run_bind_eq_ok.mp h₁
    split at h₂
    · cases parent with
      | none =>
        obtain ⟨_, w₃, -, h₃⟩ := run_bind_eq_ok.mp h₂
        cases setUpNewInode_returns h₃
        rfl
      | some parent =>
        obtain ⟨dir, w₃, -, h₃⟩ := run_bind_eq_ok.mp h₂
        obtain ⟨_, w₄, -, h₄⟩ := run_bind_eq_ok.mp h₃
        cases setUpNewInode_returns h₄
        rfl
    · obtain ⟨_, w₃, -, h₃⟩ := run_bind_eq_ok.mp h₂
      cases h₃

end NewInode

/-- The `k`-th number that is given out from `id` on. -/
def numberFrom (id k : ℕ) : ℕ := (id + k) % 2 ^ 64

theorem serial_id {ι : Type*} {id : ℕ} (hid : id < 2 ^ 64) (order : List ι) :
    (idSection.serial (fun _ => .load) id order).1.map Prod.snd =
        ((List.range order.length).map (numberFrom id)).reverse ∧
      (idSection.serial (fun _ => .load) id order).2 = numberFrom id order.length := by
  induction order with
  | nil => exact ⟨rfl, (Nat.mod_eq_of_lt hid).symm⟩
  | cons i order ih =>
    obtain ⟨hnumbers, hnext⟩ := ih
    simp only [CriticalSection.serial, eval_id, List.map_cons, hnumbers, hnext, List.length_cons,
      List.range_succ, List.map_append, List.reverse_append, List.map_nil, List.reverse_cons,
      List.reverse_nil, List.nil_append, List.cons_append, true_and]
    simp only [numberFrom]
    omega

/-- Fewer than `2 ^ 64` numbers in a row are distinct. -/
theorem nodup_numbersFrom (id : ℕ) {n : ℕ} (hn : n ≤ 2 ^ 64) :
    ((List.range n).map (numberFrom id)).Nodup := by
  refine (List.nodup_map_iff_inj_on List.nodup_range).mpr fun j hj k hk heq => ?_
  rw [List.mem_range] at hj hk
  simp only [numberFrom] at heq
  omega

/-- However the calls of `spfs_new_inode` of any threads interleave, the numbers they take are
the next ones of the counter, each given once, without a gap: in the order in which they
give the mutex back these are `id`, `id + 1` and so on, and no two calls take the same
before `2 ^ 64` of them have. -/
theorem spfsNewInode_concurrent {ι : Type*} [DecidableEq ι] {id : ℕ} (hid : id < 2 ^ 64)
    (sched : List ι) :
    let st := Sys.run idSection (fun _ => IdStmt.load) id sched
    st.history.reverse.map Prod.snd = (List.range st.history.length).map (numberFrom id) ∧
      (st.owner = none → st.shared = numberFrom id st.history.length) ∧
      (st.history.length ≤ 2 ^ 64 → ∀ i j r, st.pc i = .returned r → st.pc j = .returned r → i = j) := by
  have hserial : Serial idSection (fun _ => IdStmt.load) id
      (Sys.run idSection (fun _ => IdStmt.load) id sched) := Serial.run sched
  generalize Sys.run idSection (fun _ => IdStmt.load) id sched = st at hserial ⊢
  obtain ⟨hnumbers, hnext⟩ := serial_id hid (st.history.map Prod.fst)
  rw [← hserial.history, List.length_map] at hnumbers
  rw [List.length_map] at hnext
  refine ⟨?_, fun hfree => (hserial.free hfree).trans hnext, fun hlen i j r hi hj => ?_⟩
  · rw [List.map_reverse, hnumbers, List.reverse_reverse]
  · have hnodup : (st.history.map Prod.snd).Nodup := by
      rw [hnumbers]
      exact List.nodup_reverse.mpr (nodup_numbersFrom id hlen)
    have hi := (hserial.returned i r).mp hi
    have hj := (hserial.returned j r).mp hj
    exact congrArg Prod.fst (List.inj_on_of_nodup_map hnodup hi hj rfl)

/-- Two calls that both load before either could store, were it not for the mutex. -/
theorem spfsNewInode_concurrent_two :
    let st := Sys.run idSection (fun _ => IdStmt.load) (2 ^ 64 - 1)
      [false, false, true, false, true, false, true, true, true, true]
    st.history = [(true, 0), (false, 2 ^ 64 - 1)] ∧
      st.history.reverse.map Prod.snd =
        (List.range st.history.length).map (numberFrom (2 ^ 64 - 1)) := by
  refine ⟨by decide, ?_⟩
  exact (spfsNewInode_concurrent (by decide) _).1

end Spfs
