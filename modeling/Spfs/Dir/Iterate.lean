-- SUMMARY: sp.c: spfs_iterate; reading a directory in pieces emits each child once and in order, as long as names end.
import Spfs.Dir.Visits
import Spfs.Mkfs

/-!
# Reading a directory in pieces

`spfs_iterate` emits the dots and then runs through all children again, and passes over
those that an earlier call emitted. The position of the context counts what was emitted.
The length of a name is taken of every child that is passed, and a name of 256 bytes has
no end in its array.
-/

namespace Spfs

/-- What `dir_emit` is given for an entry. -/
structure DirEntry where
  name : List UInt8
  ino : ℕ
  type : ℕ
deriving DecidableEq, Repr

/-- `struct dir_context`: the position, the entries that were emitted, and the calls of
`dir_emit` so far. The actor says of each call whether it takes the entry. -/
structure DirContext where
  actor : ℕ → Bool
  pos : ℕ
  emitted : List DirEntry
  calls : ℕ

/-- An open directory: its inode, and the number of the inode above it. -/
structure DirFile where
  inode : ℕ
  parentIno : ℕ

/-- `dir_emit` of the kernel. -/
def dirEmit (ctx : DirContext) (entry : DirEntry) : DirContext × Bool :=
  if ctx.actor ctx.calls then
    ({ ctx with emitted := ctx.emitted ++ [entry], calls := ctx.calls + 1 }, true)
  else
    ({ ctx with calls := ctx.calls + 1 }, false)

def DT_DIR : ℕ := 4

/-- The entries of an open directory for itself and for the one above it. -/
def dotEntry (ino : ℕ) : DirEntry := ⟨[0x2E], ino, DT_DIR⟩
def dotdotEntry (parentIno : ℕ) : DirEntry := ⟨[0x2E, 0x2E], parentIno, DT_DIR⟩

/-- Emit the entry at position `pos`, if that is where the context is. -/
def emitAt (pos : ℕ) (entry : DirEntry) (ctx : DirContext) : DirContext × Bool :=
  if ctx.pos = pos then
    let (ctx, ok) := dirEmit ctx entry
    (if ok then { ctx with pos := pos + 1 } else ctx, ok)
  else
    (ctx, true)

/-- `dir_emit_dots` of the kernel. -/
def dirEmitDots (ino parentIno : ℕ) (ctx : DirContext) : DirContext × Bool :=
  let (ctx, ok) := emitAt 0 (dotEntry ino) ctx
  if !ok then (ctx, false) else emitAt 1 (dotdotEntry parentIno) ctx

/-- The bytes of a name before the first that is zero. -/
def cString (name : Name) : List UInt8 := name.val.takeWhile (· ≠ 0)

/-- `strlen` of a name: the search for the end leaves the array when there is none. -/
def strlen (name : Name) : Kernel ℕ := do
  if 0 ∉ name.val then throw .oob
  return (cString name).length

/-- The closure is the context and the position of the child. -/
def spfsIterateCb : ForAllCb (DirContext × ℕ) := fun (dirCtx, pos) cur => do
  let some p := cur | throw .nullDeref
  let cur ← getInode p
  let nlen ← strlen cur.name
  let entry : DirEntry := ⟨cur.name.val.take nlen, cur.iIno, cur.iMode / 2 ^ 12 % 16⟩
  let (dirCtx, result) := emitAt pos entry dirCtx
  return ((dirCtx, pos + 1), result)

/-- `spfs_iterate`: the result and the context after the call. -/
def spfsIterate (env : Env) (file : DirFile) (dirCtx : DirContext) : Kernel (ℤ × DirContext) := do
  let parent ← getInode file.inode
  let (dirCtx, ok) := dirEmitDots parent.iIno file.parentIno dirCtx
  if !ok then
    return (- EIO, dirCtx)
  if dirCtx.pos ≥ (parent.capacity + 2) % 2 ^ 32 then
    return (0, dirCtx)
  let (_, dirCtx, _) ← spfsForAllChildren env spfsIterateCb file.inode (dirCtx, 2)
  return (0, dirCtx)

/-- `k` calls with one context. -/
def iterateTimes (env : Env) (file : DirFile) : ℕ → DirContext → Kernel DirContext
  | 0, dirCtx => return dirCtx
  | k + 1, dirCtx => do
    let (_, dirCtx) ← spfsIterate env file dirCtx
    iterateTimes env file k dirCtx

/-! ## What is to be emitted -/

/-- The entry of a child. -/
def SpfsInode.entry (i : SpfsInode) : DirEntry := ⟨cString i.name, i.iIno, i.iMode / 2 ^ 12 % 16⟩

/-- The dots and the children in order. -/
def allEntries (i : SpfsInode) (file : DirFile) (obj : ℕ → SpfsInode) (ids : List ℕ) : List DirEntry :=
  [dotEntry i.iIno, dotdotEntry file.parentIno] ++ ids.map fun id => (obj id).entry

/-- The context has emitted the entries before its position. -/
structure Emitted (entries : List DirEntry) (ctx : DirContext) : Prop where
  eq : ctx.emitted = entries.take ctx.pos
  le : ctx.pos ≤ entries.length

/-- From `ctx` to `ctx'` entries are emitted in order; either the actor takes all that
it is offered, or there is a call that it refuses. -/
structure Emits (entries : List DirEntry) (ctx ctx' : DirContext) : Prop where
  emitted : Emitted entries ctx'
  actor : ctx'.actor = ctx.actor
  pos : ctx.pos ≤ ctx'.pos
  calls : ctx.calls ≤ ctx'.calls

/-- A call of `dir_emit` between the two was refused. -/
def Refused (ctx ctx' : DirContext) : Prop :=
  ∃ c, ctx.calls ≤ c ∧ c < ctx'.calls ∧ ctx.actor c = false

section Emit

variable {entries : List DirEntry} {ctx ctx' ctx'' : DirContext} {pos : ℕ} {entry : DirEntry}

theorem Emits.refl (h : Emitted entries ctx) : Emits entries ctx ctx := ⟨h, rfl, le_rfl, le_rfl⟩

theorem Emits.trans (h : Emits entries ctx ctx') (h' : Emits entries ctx' ctx'') :
    Emits entries ctx ctx'' :=
  ⟨h'.emitted, h'.actor.trans h.actor, h.pos.trans h'.pos, h.calls.trans h'.calls⟩

theorem Refused.of_emits (h : Emits entries ctx ctx') (hr : Refused ctx' ctx'') : Refused ctx ctx'' := by
  obtain ⟨c, hle, hlt, hno⟩ := hr
  exact ⟨c, h.calls.trans hle, hlt, h.actor ▸ hno⟩

/-- Emitting the entry at a position that was reached passes it, or is refused. -/
theorem emitAt_emits (h : Emitted entries ctx) (hentry : entries[pos]? = some entry)
    (hpos : pos ≤ ctx.pos) :
    Emits entries ctx (emitAt pos entry ctx).1 ∧
      ((emitAt pos entry ctx).2 = true → pos + 1 ≤ (emitAt pos entry ctx).1.pos) ∧
      ((emitAt pos entry ctx).2 = false → Refused ctx (emitAt pos entry ctx).1) := by
  obtain ⟨hlt, hget⟩ := List.getElem?_eq_some_iff.mp hentry
  by_cases hhere : ctx.pos = pos
  · by_cases htake : ctx.actor ctx.calls = true
    · have hemit : emitAt pos entry ctx = ({ ctx with
          emitted := ctx.emitted ++ [entry], calls := ctx.calls + 1, pos := pos + 1 }, true) := by
        rw [emitAt, if_pos hhere, dirEmit, if_pos htake]
        rfl
      rw [hemit]
      refine ⟨⟨⟨?_, hlt⟩, rfl, ?_, Nat.le_succ _⟩, fun _ => le_rfl, nofun⟩
      · show ctx.emitted ++ [entry] = entries.take (pos + 1)
        rw [h.eq, hhere, List.take_add_one, hentry]
        rfl
      · show ctx.pos ≤ pos + 1
        omega
    · have hno := eq_false_of_ne_true htake
      have hemit : emitAt pos entry ctx = ({ ctx with calls := ctx.calls + 1 }, false) := by
        rw [emitAt, if_pos hhere, dirEmit, if_neg htake]
        rfl
      rw [hemit]
      refine ⟨⟨⟨h.eq, h.le⟩, rfl, le_rfl, Nat.le_succ _⟩, nofun, fun _ => ?_⟩
      exact ⟨ctx.calls, le_rfl, Nat.lt_succ_self _, hno⟩
  · have hemit : emitAt pos entry ctx = (ctx, true) := by rw [emitAt, if_neg hhere]
    rw [hemit]
    exact ⟨Emits.refl h, fun _ => by show pos + 1 ≤ ctx.pos; omega, nofun⟩

/-- A position behind the entry means that the entry is passed over. -/
theorem emitAt_passed (hpos : pos < ctx.pos) : emitAt pos entry ctx = (ctx, true) := by
  rw [emitAt, if_neg (Nat.ne_of_gt hpos)]

/-- The dots come before all children. -/
theorem dirEmitDots_emits {ino parentIno : ℕ} {rest : List DirEntry}
    (hentries : entries = [dotEntry ino, dotdotEntry parentIno] ++ rest) (h : Emitted entries ctx) :
    Emits entries ctx (dirEmitDots ino parentIno ctx).1 ∧
      ((dirEmitDots ino parentIno ctx).2 = true → 2 ≤ (dirEmitDots ino parentIno ctx).1.pos) ∧
      ((dirEmitDots ino parentIno ctx).2 = false → Refused ctx (dirEmitDots ino parentIno ctx).1) := by
  have hdot : entries[0]? = some (dotEntry ino) := by rw [hentries]; rfl
  have hdotdot : entries[1]? = some (dotdotEntry parentIno) := by rw [hentries]; rfl
  obtain ⟨hemits, hmore, hstop⟩ := emitAt_emits h hdot (Nat.zero_le _)
  rw [dirEmitDots]
  generalize emitAt 0 (dotEntry ino) ctx = r at hemits hmore hstop
  obtain ⟨ctx₁, ok⟩ := r
  cases ok with
  | false => exact ⟨hemits, nofun, hstop⟩
  | true =>
    obtain ⟨hemits', hmore', hstop'⟩ := emitAt_emits hemits.emitted hdotdot (hmore rfl)
    exact ⟨hemits.trans hemits', hmore', fun hno => Refused.of_emits hemits (hstop' hno)⟩

theorem dirEmitDots_passed {ino parentIno : ℕ} (hpos : 2 ≤ ctx.pos) :
    dirEmitDots ino parentIno ctx = (ctx, true) := by
  rw [dirEmitDots, emitAt_passed (by omega)]
  exact emitAt_passed (by omega)

end Emit

/-! ## The traversal of a call -/

/-- What the callback does on a child, by its id. -/
def iterateStep (obj : ℕ → SpfsInode) (closure : DirContext × ℕ) (id : ℕ) : (DirContext × ℕ) × Bool :=
  (((emitAt closure.2 (obj id).entry closure.1).1, closure.2 + 1),
    (emitAt closure.2 (obj id).entry closure.1).2)

/-- The traversal emits the children from the position of the context on. -/
theorem foldIds_iterate (obj : ℕ → SpfsInode) {entries : List DirEntry} (pre : List DirEntry) {ids : List ℕ}
    {ctx : DirContext} (hentries : entries = pre ++ ids.map fun id => (obj id).entry)
    (h : Emitted entries ctx) (hpos : pre.length ≤ ctx.pos) :
    Emits entries ctx (foldIds (iterateStep obj) ids (ctx, pre.length)).1.1 ∧
      ((foldIds (iterateStep obj) ids (ctx, pre.length)).2 = true →
        (foldIds (iterateStep obj) ids (ctx, pre.length)).1.1.pos = entries.length) ∧
      ((foldIds (iterateStep obj) ids (ctx, pre.length)).2 = false →
        Refused ctx (foldIds (iterateStep obj) ids (ctx, pre.length)).1.1) := by
  induction ids generalizing pre ctx with
  | nil =>
    have hlen : entries.length = pre.length := by rw [hentries, List.map_nil, List.append_nil]
    refine ⟨Emits.refl h, fun _ => ?_, fun hno => ?_⟩
    · exact Nat.le_antisymm h.le (hlen.trans_le hpos)
    · cases hno
  | cons id ids ih =>
    have hhere : entries[pre.length]? = some (obj id).entry := by
      rw [hentries, List.getElem?_append_right le_rfl, Nat.sub_self]
      rfl
    have hnext : entries = (pre ++ [(obj id).entry]) ++ ids.map fun id => (obj id).entry := by
      rw [hentries, List.append_assoc]
      rfl
    have hlen : (pre ++ [(obj id).entry]).length = pre.length + 1 := by
      rw [List.length_append, List.length_singleton]
    obtain ⟨hemits, hmore, hstop⟩ := emitAt_emits h hhere hpos
    rw [foldIds, iterateStep]
    dsimp only
    generalize emitAt pre.length (obj id).entry ctx = r at hemits hmore hstop
    obtain ⟨ctx₁, ok⟩ := r
    cases ok with
    | false => exact ⟨hemits, fun hyes => absurd hyes Bool.false_ne_true, fun _ => hstop rfl⟩
    | true =>
      have hrest := ih _ hnext hemits.emitted (by rw [hlen]; exact hmore rfl)
      rw [hlen] at hrest
      obtain ⟨hemits', hmore', hstop'⟩ := hrest
      exact ⟨hemits.trans hemits', hmore', fun hno => Refused.of_emits hemits (hstop' hno)⟩

/-- The ids resolve, and always to inodes with the number, the mode and the name of `obj`. -/
structure ResolvesTo (env : Env) (p : ℕ) (obj : ℕ → SpfsInode) (ids : List ℕ)
    (G : World → Prop) : Prop extends Resolves env p ids G where
  known : ∀ w w' id, G w → id ∈ ids → (spfsInodeById env id).run w = .ok (.ok (some id)) w' →
    ∃ j, w'.inodes id = some j ∧ j.iIno = (obj id).iIno ∧ j.iMode = (obj id).iMode ∧
      j.name = (obj id).name

section Callback

variable {env : Env} {p : ℕ} {obj : ℕ → SpfsInode} {ids : List ℕ} {G : World → Prop}

theorem run_strlen {name : Name} (h : 0 ∈ name.val) (w : World) :
    (strlen name).run w = .ok (cString name).length w := by
  rw [strlen, if_neg (not_not.mpr h)]
  rfl

theorem take_cString (name : Name) : name.val.take (cString name).length = cString name := by
  have hfront : cString name <+: name.val := List.takeWhile_prefix _
  exact (List.prefix_iff_eq_take.mp hfront).symm

/-- On a child whose name ends, the callback only looks. -/
theorem run_spfsIterateCb {q : ℕ} {j : SpfsInode} {w : World} (hj : w.inodes q = some j)
    (hname : 0 ∈ j.name.val) (closure : DirContext × ℕ) :
    (spfsIterateCb closure (some q)).run w =
      .ok (((emitAt closure.2 j.entry closure.1).1, closure.2 + 1),
        (emitAt closure.2 j.entry closure.1).2) w := by
  obtain ⟨ctx, pos⟩ := closure
  rw [spfsIterateCb]
  dsimp only
  rw [EStateM.run_bind_of_ok (run_getInode_of hj), EStateM.run_bind_of_ok (run_strlen hname w),
    take_cString]
  rfl

theorem run_spfsIterateCb_oob {q : ℕ} {j : SpfsInode} {w : World} (hj : w.inodes q = some j)
    (hname : 0 ∉ j.name.val) (closure : DirContext × ℕ) :
    (spfsIterateCb closure (some q)).run w = .error .oob w := by
  obtain ⟨ctx, pos⟩ := closure
  have hlen : (strlen j.name).run w = .error .oob w := by
    rw [strlen, if_pos hname]
    rfl
  rw [spfsIterateCb]
  dsimp only
  rw [EStateM.run_bind_of_ok (run_getInode_of hj), EStateM.run_bind_of_error hlen]

/-- The callback changes nothing. -/
theorem within_spfsIterateCb {R : World → World → Prop} [IsPreorder World R] (closure : DirContext × ℕ)
    (child : Option ℕ) : EStateM.Within R (spfsIterateCb closure child) := by
  obtain ⟨ctx, pos⟩ := closure
  cases child with
  | none => exact EStateM.Within.throw _
  | some q =>
    refine (within_getInode q).bind fun j => EStateM.Within.bind ?_ fun n => EStateM.Within.pure _
    unfold strlen
    exact EStateM.Within.ite (fun _ => EStateM.Within.throw _) fun _ => EStateM.Within.pure _

theorem keepsStore_spfsIterateCb : KeepsStore spfsIterateCb := within_spfsIterateCb

theorem actsAs_spfsIterateCb (h : ResolvesTo env p obj ids G)
    (hnames : ∀ id ∈ ids, 0 ∈ (obj id).name.val) :
    ActsAs env spfsIterateCb (iterateStep obj) p ids G := by
  intro w₀ w closure id hG₀ hid hlookup hG
  obtain ⟨j, hj, hino, hmode, hname⟩ := h.known w₀ w id hG₀ hid hlookup
  have hentry : j.entry = (obj id).entry := by
    rw [SpfsInode.entry, SpfsInode.entry, hino, hmode, hname]
  have hends : 0 ∈ j.name.val := hname ▸ hnames id hid
  refine ⟨w, ?_, hG, refl_of (KeepsDir p) w⟩
  rw [run_spfsIterateCb hj hends, hentry]
  rfl

end Callback

/-! ## Calls -/

/-- A directory `p` with the object `i`, but for its references, that lists the blocks, in a
state of `G`. -/
structure Served (p : ℕ) (i : SpfsInode) (blocks : List (ℕ × List ℕ)) (G : World → Prop)
    (w : World) : Prop where
  dir : ∃ n, w.inodes p = some { i with iCount := n }
  lists : DirLists w.bSize w.disk i.start blocks
  good : G w

/-- The children of a directory are fixed, and can be found. -/
structure Fixed (env : Env) (p : ℕ) (i : SpfsInode) (obj : ℕ → SpfsInode)
    (blocks : List (ℕ × List ℕ)) (G : World → Prop) : Prop where
  io : ∀ t s, env.ioOk t s = true
  fuel : blocks.length ≤ env.fuel
  sb : i.iSb = .sb
  mode : sIsDir i.iMode = true
  lock : i.lock = false
  capacity : i.capacity = (listedIds blocks).length
  small : i.capacity + 2 < 2 ^ 32
  ids : ResolvesTo env p obj (listedIds blocks) G

/-- After each of the calls with one context, what was emitted is a prefix of the entries
and the position is its length; the next call completes the entries unless it is refused
one, and emits nothing when they are complete. -/
def ReadsInPieces (env : Env) (file : DirFile) (entries : List DirEntry) (actor : ℕ → Bool)
    (w : World) : Prop :=
  ∀ k, ∃ ctx ctx' r w₁ w₂, (iterateTimes env file k ⟨actor, 0, [], 0⟩).run w = .ok ctx w₁ ∧
    (spfsIterate env file ctx).run w₁ = .ok (r, ctx') w₂ ∧
    ctx.emitted <+: entries ∧ ctx.pos = ctx.emitted.length ∧
    (¬ Refused ctx ctx' → ctx'.emitted = entries) ∧
    (ctx.emitted = entries → ctx'.emitted = entries)

section Calls

variable {env : Env} {file : DirFile} {i : SpfsInode} {obj : ℕ → SpfsInode}
  {blocks : List (ℕ × List ℕ)} {G : World → Prop} {w : World} {ctx : DirContext}

theorem Served.step {w' : World} (hs : Served file.inode i blocks G w) (hG : G w')
    (hdir : KeepsDir file.inode w w') (hstore : SameStore w w') :
    Served file.inode i blocks G w' := by
  obtain ⟨n, hn⟩ := hs.dir
  obtain ⟨m, hm⟩ := hdir _ hn
  refine ⟨⟨m, hm⟩, ?_, hG⟩
  rw [hstore.bSize, hstore.disk]
  exact hs.lists

/-- One call. -/
theorem spfsIterate_emits (hfix : Fixed env file.inode i obj blocks G)
    (hnames : ∀ id ∈ listedIds blocks, 0 ∈ (obj id).name.val)
    (hs : Served file.inode i blocks G w)
    (h : Emitted (allEntries i file obj (listedIds blocks)) ctx) :
    ∃ r ctx' w', (spfsIterate env file ctx).run w = .ok (r, ctx') w' ∧
      Served file.inode i blocks G w' ∧
      Emits (allEntries i file obj (listedIds blocks)) ctx ctx' ∧
      (¬ Refused ctx ctx' → ctx'.pos = (allEntries i file obj (listedIds blocks)).length) ∧
      (ctx.pos = (allEntries i file obj (listedIds blocks)).length → ctx' = ctx) := by
  set entries := allEntries i file obj (listedIds blocks) with hentries
  obtain ⟨n, hn⟩ := hs.dir
  have hlen : entries.length = i.capacity + 2 := by
    rw [hentries, allEntries, List.length_append, List.length_map, hfix.capacity]
    exact Nat.add_comm _ _
  have hmod : (i.capacity + 2) % 2 ^ 32 = i.capacity + 2 := Nat.mod_eq_of_lt hfix.small
  obtain ⟨hemits, hmore, hstop⟩ := dirEmitDots_emits hentries h
  have hpassed : ctx.pos = entries.length → dirEmitDots i.iIno file.parentIno ctx = (ctx, true) :=
    fun hend => dirEmitDots_passed (by omega)
  rw [spfsIterate, EStateM.run_bind_of_ok (run_getInode_of hn)]
  dsimp only
  generalize dirEmitDots i.iIno file.parentIno ctx = r at hemits hmore hstop hpassed
  obtain ⟨ctx₁, ok⟩ := r
  cases ok with
  | false =>
    refine ⟨- EIO, ctx₁, w, rfl, hs, hemits, fun hno => absurd (hstop rfl) hno, fun hend => ?_⟩
    exact absurd (congrArg Prod.snd (hpassed hend)) (by simp)
  | true =>
    rw [if_neg (by simp), hmod]
    by_cases hdone : ctx₁.pos ≥ i.capacity + 2
    · rw [if_pos hdone]
      refine ⟨0, ctx₁, w, rfl, hs, hemits, fun _ => ?_, fun hend => ?_⟩
      · exact Nat.le_antisymm hemits.emitted.le (hlen.trans_le hdone)
      · exact congrArg Prod.fst (hpassed hend)
    · rw [if_neg hdone]
      obtain ⟨w', hrun, hG', hdir, hstore⟩ := run_spfsForAllChildren_of_resolves hfix.io
        keepsStore_spfsIterateCb hn hfix.sb hfix.mode hfix.lock hs.lists hfix.fuel
        hfix.ids.toResolves (actsAs_spfsIterateCb hfix.ids hnames) hs.good (ctx₁, 2)
      have hfold := foldIds_iterate obj [dotEntry i.iIno, dotdotEntry file.parentIno]
        hentries hemits.emitted (hmore rfl)
      set r := foldIds (iterateStep obj) (listedIds blocks) (ctx₁, 2)
      obtain ⟨hemits', hmore', hstop'⟩ := hfold
      rw [EStateM.run_bind_of_ok hrun]
      refine ⟨0, r.1.1, w', rfl, hs.step hG' hdir hstore, hemits.trans hemits', fun hno => ?_,
        fun hend => ?_⟩
      · apply hmore'
        apply eq_true_of_ne_false
        exact fun hfalse => hno (Refused.of_emits hemits (hstop' hfalse))
      · have hsame : ctx₁ = ctx := congrArg Prod.fst (hpassed hend)
        subst hsame
        omega

theorem iterateTimes_succ (k : ℕ) (ctx : DirContext) :
    iterateTimes env file (k + 1) ctx = (do
      let r ← spfsIterate env file ctx
      iterateTimes env file k r.2) := rfl

/-- A sequence of calls. -/
theorem iterateTimes_emits (hfix : Fixed env file.inode i obj blocks G)
    (hnames : ∀ id ∈ listedIds blocks, 0 ∈ (obj id).name.val)
    (hs : Served file.inode i blocks G w)
    (h : Emitted (allEntries i file obj (listedIds blocks)) ctx) (k : ℕ) :
    ∃ ctx' w', (iterateTimes env file k ctx).run w = .ok ctx' w' ∧
      Served file.inode i blocks G w' ∧
      Emitted (allEntries i file obj (listedIds blocks)) ctx' := by
  induction k generalizing ctx w with
  | zero => exact ⟨ctx, w, rfl, hs, h⟩
  | succ k ih =>
    obtain ⟨r, ctx₁, w₁, hrun, hs₁, hemits, -⟩ := spfsIterate_emits hfix hnames hs h
    obtain ⟨ctx', w', hrest, hs', h'⟩ := ih hs₁ hemits.emitted
    refine ⟨ctx', w', ?_, hs', h'⟩
    rw [iterateTimes_succ, EStateM.run_bind_of_ok hrun]
    exact hrest

theorem Emitted.front {entries : List DirEntry} (h : Emitted entries ctx) :
    ctx.emitted <+: entries ∧ ctx.pos = ctx.emitted.length := by
  have hfront : entries.take ctx.pos <+: entries := List.take_prefix _ _
  have hle := h.le
  rw [h.eq, List.length_take]
  exact ⟨hfront, by omega⟩

/-! ## Names that do not end -/

theorem emitAt_willing (hall : ∀ c, ctx.actor c = true) (pos : ℕ) (entry : DirEntry) :
    (emitAt pos entry ctx).2 = true ∧ (emitAt pos entry ctx).1.actor = ctx.actor := by
  rw [emitAt]
  split
  · rw [dirEmit, if_pos (hall _)]
    exact ⟨rfl, rfl⟩
  · exact ⟨rfl, rfl⟩

/-- When nothing is refused, all ids are visited, so their names have an end. -/
theorem visitAll_names {p pos : ℕ} {ids : List ℕ} {r : (DirContext × ℕ) × Bool} {w' : World}
    (h : ResolvesTo env p obj ids G) (hG : G w) (hall : ∀ c, ctx.actor c = true)
    (hrun : (visitAll env spfsIterateCb ids (ctx, pos)).run w = .ok r w') :
    r.2 = true ∧ (∀ c, r.1.1.actor c = true) ∧ G w' ∧ ∀ id ∈ ids, 0 ∈ (obj id).name.val := by
  induction ids generalizing ctx pos w with
  | nil =>
    cases hrun
    exact ⟨rfl, hall, hG, nofun⟩
  | cons id ids ih =>
    obtain ⟨w₁, hlookup, hG₁⟩ := h.lookup w id hG List.mem_cons_self
    obtain ⟨j, hj, -, -, hname⟩ := h.known w w₁ id hG List.mem_cons_self hlookup
    have htail : ResolvesTo env p obj ids G :=
      ⟨h.mono fun _ hid => List.mem_cons_of_mem id hid,
        fun w w' id' hG hid => h.known w w' id' hG (List.mem_cons_of_mem id hid)⟩
    rw [visitAll, EStateM.run_bind_of_ok hlookup] at hrun
    dsimp only at hrun
    by_cases hends : 0 ∈ j.name.val
    · rw [EStateM.run_bind_of_ok (run_spfsIterateCb hj hends (ctx, pos))] at hrun
      obtain ⟨hmore, hactor⟩ := emitAt_willing hall pos j.entry
      dsimp only at hrun
      rw [hmore] at hrun
      obtain ⟨hr, hall', hG', hnames⟩ := ih htail hG₁ (by rw [hactor]; exact hall) hrun
      refine ⟨hr, hall', hG', List.forall_mem_cons.mpr ⟨?_, hnames⟩⟩
      rw [← hname]
      exact hends
    · rw [EStateM.run_bind_of_error (run_spfsIterateCb_oob hj hends (ctx, pos))] at hrun
      cases hrun

theorem visitBlocks_names {p pos : ℕ} {r : (DirContext × ℕ) × Bool} {w' : World}
    (h : ResolvesTo env p obj (listedIds blocks) G) (hG : G w) (hall : ∀ c, ctx.actor c = true)
    (hrun : (visitBlocks env spfsIterateCb blocks (ctx, pos)).run w = .ok r w') :
    ∀ id ∈ listedIds blocks, 0 ∈ (obj id).name.val := by
  induction blocks generalizing ctx pos w with
  | nil => exact nofun
  | cons block blocks ih =>
    obtain ⟨s, ids⟩ := block
    have hhead : ∀ id ∈ ids, id ∈ listedIds ((s, ids) :: blocks) :=
      fun _ hid => List.mem_append_left _ hid
    have htail : ∀ id ∈ listedIds blocks, id ∈ listedIds ((s, ids) :: blocks) :=
      fun _ hid => List.mem_append_right _ hid
    have hids : ResolvesTo env p obj ids G :=
      ⟨h.mono hhead, fun w w' id hG hid => h.known w w' id hG (hhead id hid)⟩
    have hrest : ResolvesTo env p obj (listedIds blocks) G :=
      ⟨h.mono htail, fun w w' id hG hid => h.known w w' id hG (htail id hid)⟩
    rw [visitBlocks, EStateM.run_bind_of_ok (run_emit _ w)] at hrun
    obtain ⟨⟨⟨ctx₁, pos₁⟩, more⟩, w₁, hvisit, hrun₁⟩ := EStateM.run_bind_eq_ok.mp hrun
    obtain ⟨rfl, hall₁, hG₁, hnames⟩ := visitAll_names hids (h.log w _ hG) hall hvisit
    dsimp only at hrun₁
    rw [EStateM.run_bind_of_ok (run_brelse s w₁)] at hrun₁
    have hnames' := ih hrest (h.log w₁ _ hG₁) hall₁ hrun₁
    intro id hid
    rcases List.mem_append.mp hid with hid | hid
    · exact hnames id hid
    · exact hnames' id hid

/-- A call that is not refused anything passes all children. -/
theorem spfsIterate_names (hfix : Fixed env file.inode i obj blocks G)
    (hs : Served file.inode i blocks G w) {r : ℤ} {ctx' : DirContext} {w' : World}
    (hrun : (spfsIterate env file ⟨fun _ => true, 0, [], 0⟩).run w = .ok (r, ctx') w') :
    ∀ id ∈ listedIds blocks, 0 ∈ (obj id).name.val := by
  obtain ⟨n, hn⟩ := hs.dir
  have hmod : (i.capacity + 2) % 2 ^ 32 = i.capacity + 2 := Nat.mod_eq_of_lt hfix.small
  have hdots : dirEmitDots i.iIno file.parentIno ⟨fun _ => true, 0, [], 0⟩ =
      (⟨fun _ => true, 2, [dotEntry i.iIno, dotdotEntry file.parentIno], 2⟩, true) := rfl
  rw [spfsIterate, EStateM.run_bind_of_ok (run_getInode_of hn)] at hrun
  dsimp only at hrun
  rw [hdots] at hrun
  dsimp only at hrun
  rw [hmod] at hrun
  intro id hid
  have hcap := hfix.capacity
  have hlen := List.length_pos_of_mem hid
  have hmore : ¬ 2 ≥ i.capacity + 2 := by omega
  rw [if_neg (by simp), if_neg hmore,
    EStateM.run_bind_match, run_spfsForAllChildren hfix.io keepsStore_spfsIterateCb hn hfix.sb
      hfix.mode hfix.lock hs.lists hfix.fuel,
    EStateM.run_bind_of_ok (run_mutexLock_of hn hfix.lock)] at hrun
  set w₁ := (w.setInode file.inode { { i with iCount := n } with lock := true }).addEvent
    (.lock file.inode) with hw₁
  have hG₁ : G w₁ := hfix.ids.log _ _ (hfix.ids.lock w _ true hs.good hn)
  cases hvisit : (visitBlocks env spfsIterateCb blocks
      (⟨fun _ => true, 2, [dotEntry i.iIno, dotdotEntry file.parentIno], 2⟩, 2)).run w₁ with
  | error e w₂ =>
    rw [EStateM.run_bind_of_error hvisit] at hrun
    cases hrun
  | ok r w₂ => exact visitBlocks_names hfix.ids hG₁ (fun _ => rfl) hvisit id hid

/-- Reading in pieces emits each child once and in order, however the actor refuses, exactly
when every name has an end in its array. -/
theorem spfsIterate_readsInPieces_iff (hfix : Fixed env file.inode i obj blocks G)
    (hs : Served file.inode i blocks G w) :
    (∀ actor, ReadsInPieces env file (allEntries i file obj (listedIds blocks)) actor w) ↔
      ∀ id ∈ listedIds blocks, 0 ∈ (obj id).name.val := by
  constructor
  · intro hreads
    obtain ⟨ctx, ctx', r, w₁, w₂, hnone, hrun, -⟩ := hreads (fun _ => true) 0
    cases hnone
    exact spfsIterate_names hfix hs hrun
  · intro hnames actor k
    have hstart : Emitted (allEntries i file obj (listedIds blocks)) ⟨actor, 0, [], 0⟩ :=
      ⟨rfl, Nat.zero_le _⟩
    obtain ⟨ctx, w₁, hbefore, hs₁, h₁⟩ := iterateTimes_emits hfix hnames hs hstart k
    obtain ⟨r, ctx', w₂, hrun, hs₂, hemits, hall, hdone⟩ := spfsIterate_emits hfix hnames hs₁ h₁
    refine ⟨ctx, ctx', r, w₁, w₂, hbefore, hrun, h₁.front.1, h₁.front.2, fun hno => ?_, fun hend => ?_⟩
    · rw [hemits.emitted.eq, hall hno, List.take_length]
    · have hpos : ctx.pos = (allEntries i file obj (listedIds blocks)).length := by
        rw [h₁.front.2, hend]
      rw [hdone hpos, hend]

end Calls

/-! ## A directory with one child -/

def rootFile : DirFile := ⟨1, 1⟩

/-- The file with the name, in the cache. -/
def namedFile (name : Name) (ino : ℕ) : SpfsInode :=
  { plainFile ino with iHashed := true, iCount := 1, name := name }

/-- A directory with the child 5, which has the name. -/
def oneChildWorld (name : Name) : World :=
  ((freshWorld.setBlock 50 ((withDir ⟨0, 1⟩ fun _ => 0).write 12 (beEncode 4 5))).setInode 1
    { plainDir 1 with start := 50, capacity := 1 }).setInode 5 (namedFile name 5)

theorem dirLists_oneChildWorld (name : Name) :
    DirLists (oneChildWorld name).bSize (oneChildWorld name).disk 50 [(50, [5])] := by
  set b : Block := (withDir ⟨0, 1⟩ fun _ => 0).write 12 (beEncode 4 5) with hb
  have hdisk : (oneChildWorld name).disk 50 = b := by
    show Function.update freshWorld.disk 50 b 50 = b
    exact Function.update_self _ _ _
  have hbSize : (oneChildWorld name).bSize = 4096 := rfl
  have hid : beDecode (b.read 12 4) = 5 := by
    rw [hb, Block.read_write_same (length_beEncode 4 5)]
    decide
  have hentries : entriesFrom 4096 b 12 = 5 :: entriesFrom 4096 b 16 := by
    rw [entriesFrom_of_ne_zero (by decide) (by rw [hid]; decide), hid]
  have hdir : DirAt ((oneChildWorld name).disk 50) ⟨0, 1⟩ := by
    rw [hdisk]
    exact (dirAt_withDir _ (by decide) (by decide)).write le_rfl _
  have hcount : (⟨0, 1⟩ : DirBlock).children ≤
      (entriesFrom (oneChildWorld name).bSize ((oneChildWorld name).disk 50) 12).length := by
    rw [hbSize, hdisk, hentries, List.length_cons]
    exact Nat.le_add_left 1 _
  have hlists := DirLists.cons (by decide) hdir hcount .nil
  rwa [hbSize, hdisk, hentries, List.take_succ_cons, List.take_zero, ← hbSize] at hlists

theorem served_oneChildWorld (name : Name) :
    Served 1 { plainDir 1 with start := 50, capacity := 1 } [(50, [5])]
      (AllCached (namedFile name) [5]) (oneChildWorld name) where
  dir := ⟨1, rfl⟩
  lists := dirLists_oneChildWorld name
  good := by
    intro id hid
    obtain rfl := List.mem_singleton.mp hid
    exact ⟨1, false, rfl⟩

theorem findable_namedFile (name : Name) (ids : List ℕ) : Findable (namedFile name) ids := by
  intro id _
  refine ⟨?_, rfl⟩
  rw [SpfsInode.isCached]
  simp [namedFile, plainFile]

theorem fixed_oneChildWorld (name : Name) :
    Fixed (.calm 9) 1 { plainDir 1 with start := 50, capacity := 1 } (namedFile name) [(50, [5])]
      (AllCached (namedFile name) [5]) where
  io _ _ := rfl
  fuel := by decide
  sb := rfl
  mode := by decide
  lock := rfl
  capacity := rfl
  small := by decide
  ids := by
    refine ⟨resolves_allCached _ 1 (findable_namedFile name [5]), fun w w' id hG hid hrun => ?_⟩
    obtain ⟨n, b, hj⟩ := hG id hid
    obtain ⟨hcached, hnew⟩ := findable_namedFile name [5] id hid
    rw [run_spfsInodeById_cached hj hcached hnew] at hrun
    cases hrun
    exact ⟨_, Function.update_self _ _ _, rfl, rfl, rfl⟩

/-- A name of one letter. -/
def shortName : Name :=
  ⟨0x61 :: List.replicate 255 0, by rw [List.length_cons, List.length_replicate]⟩

/-- A name without an end. -/
def longName : Name := ⟨List.replicate 256 0x61, length_replicate_a⟩

theorem spfsIterate_readsInPieces_iff_oneChild :
    (∀ actor, ReadsInPieces (.calm 9) rootFile (allEntries { plainDir 1 with start := 50, capacity := 1 }
        rootFile (namedFile shortName) (listedIds [(50, [5])])) actor (oneChildWorld shortName)) ↔
      ∀ id ∈ listedIds [(50, [5])], 0 ∈ (namedFile shortName id).name.val :=
  spfsIterate_readsInPieces_iff (fixed_oneChildWorld shortName) (served_oneChildWorld shortName)

/-- The length of a name that fills its array is looked for behind the array. -/
theorem not_readsInPieces_longName :
    Fixed (.calm 9) 1 { plainDir 1 with start := 50, capacity := 1 } (namedFile longName) [(50, [5])]
        (AllCached (namedFile longName) [5]) ∧
      Served 1 { plainDir 1 with start := 50, capacity := 1 } [(50, [5])]
        (AllCached (namedFile longName) [5]) (oneChildWorld longName) ∧
      ¬ ReadsInPieces (.calm 9) rootFile (allEntries { plainDir 1 with start := 50, capacity := 1 }
        rootFile (namedFile longName) (listedIds [(50, [5])])) (fun _ => true) (oneChildWorld longName) := by
  have hfix := fixed_oneChildWorld longName
  have hs := served_oneChildWorld longName
  refine ⟨hfix, hs, fun hreads => ?_⟩
  obtain ⟨ctx, ctx', r, w₁, w₂, hnone, hrun, -⟩ := hreads 0
  cases hnone
  have hends := spfsIterate_names hfix hs hrun 5 (List.mem_singleton_self 5)
  exact absurd (List.eq_of_mem_replicate hends) (by decide)

end Spfs
