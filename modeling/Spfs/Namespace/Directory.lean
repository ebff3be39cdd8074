-- SUMMARY: A directory as a list that grows: additions, lookups and reading in pieces, in any order, agree on one list.
import Spfs.Dir.Contents
import Spfs.Dir.Iterate
import Spfs.Inode.Reuse
import Spfs.Namespace.Lookup
import Spfs.Vfs.Reading

/-!
# A directory as a list

A directory stands for the list of its children. A lookup finds the first of them that has
the name, and reading in pieces emits them in order. Both go by the same list, also while
children are added between the calls, as long as the additions can be read back.
-/

namespace Spfs

/-! ## Lookups in the list -/

/-- The first of the children that has the name. -/
def childNamed (obj : ℕ → SpfsInode) (ids : List ℕ) (name : List UInt8) : Option ℕ :=
  ids.find? fun id => cString (obj id).name == name

/-- A name that a dentry can have: it has an end, and there is room for it. -/
structure IsDName (name : List UInt8) : Prop where
  noZero : 0 ∉ name
  short : name.length < spookyFsNameMax

/-- What a lookup does on a child, by its id. -/
def byNameStep (obj : ℕ → SpfsInode) (name : List UInt8) (result : Option ℕ) (id : ℕ) : Option ℕ × Bool :=
  if cString (obj id).name = name then (some id, false) else (result, true)

/-- A shorter string without zeros is compared within the array, whatever is in the array. -/
theorem strcmp_of_short {a other : List UInt8} (hother : 0 ∉ other) (hlen : other.length < a.length) :
    ∃ r, strcmp a other = .ok r ∧ (r = 0 ↔ a.takeWhile (· ≠ 0) = other) := by
  induction a generalizing other with
  | nil => exact absurd hlen (Nat.not_lt_zero _)
  | cons c cs ih =>
    cases other with
    | nil =>
      rw [strcmp]
      by_cases hc : c = 0
      · refine ⟨0, by rw [if_pos hc], iff_of_true rfl ?_⟩
        rw [List.takeWhile_cons_of_neg (by simp [hc])]
      · refine ⟨1, by rw [if_neg hc], iff_of_false (by decide) ?_⟩
        rw [List.takeWhile_cons_of_pos (by simpa using hc)]
        exact List.cons_ne_nil _ _
    | cons d ds =>
      obtain ⟨hd, hds⟩ : d ≠ 0 ∧ 0 ∉ ds := by
        rw [List.mem_cons, not_or] at hother
        exact ⟨Ne.symm hother.1, hother.2⟩
      rw [strcmp]
      by_cases hcd : c = d
      · subst hcd
        obtain ⟨r, hr, hiff⟩ := ih hds (Nat.lt_of_succ_lt_succ hlen)
        refine ⟨r, by rw [if_neg (not_not.mpr rfl), if_neg hd, hr], hiff.trans ?_⟩
        rw [List.takeWhile_cons_of_pos (by simpa using hd), List.cons_inj_right]
      · refine ⟨if c < d then -1 else 1, by rw [if_pos hcd], iff_of_false (by split <;> decide) fun heq => ?_⟩
        by_cases hc : c = 0
        · rw [List.takeWhile_cons_of_neg (by simp [hc])] at heq
          cases heq
        · rw [List.takeWhile_cons_of_pos (by simpa using hc)] at heq
          exact hcd (List.cons.inj heq).1

theorem strcmp_cString {name : List UInt8} (h : IsDName name) (a : Name) :
    ∃ r, strcmp a.val name = .ok r ∧ (r = 0 ↔ cString a = name) := by
  refine strcmp_of_short h.noZero ?_
  rw [a.property]
  exact h.short

/-- A lookup stops at the first child that has the name. -/
theorem foldIds_byName (obj : ℕ → SpfsInode) (name : List UInt8) (ids : List ℕ) :
    (foldIds (byNameStep obj name) ids none).1 = childNamed obj ids name := by
  induction ids with
  | nil => rfl
  | cons id ids ih =>
    rw [foldIds, childNamed, byNameStep]
    by_cases hname : cString (obj id).name = name
    · rw [if_pos hname, List.find?_cons_of_pos (by simpa using hname)]
      rfl
    · rw [if_neg hname, List.find?_cons_of_neg (by simpa using hname)]
      exact ih

section Lookup

variable {env : Env} {p : ℕ} {obj : ℕ → SpfsInode} {ids : List ℕ} {G : World → Prop} {w : World}
  {i : SpfsInode} {blocks : List (ℕ × List ℕ)} {name : List UInt8}

theorem actsAs_spfsInodeByNameCb (h : ResolvesTo env p obj ids G) (hname : IsDName name) :
    ActsAs env (spfsInodeByNameCb name) (byNameStep obj name) p ids G := by
  intro w₀ w result id hG₀ hid hlookup hG
  obtain ⟨j, hj, -, -, hsame⟩ := h.known w₀ w id hG₀ hid hlookup
  obtain ⟨r, hcmp, hiff⟩ := strcmp_cString hname j.name
  refine ⟨w, ?_, hG, refl_of (KeepsDir p) w⟩
  rw [spfsInodeByNameCb, EStateM.run_bind_of_ok (run_getInode_of hj), hcmp, byNameStep, ← hsame]
  by_cases hr : r = 0
  · rw [if_pos (hiff.mp hr), hr]
    rfl
  · rw [if_neg fun h => hr (hiff.mpr h)]
    split
    · next heq => cases heq
    · next heq =>
      cases heq
      exact absurd rfl hr
    · rfl

/-- In a directory whose children are known, a lookup finds the first one with the name. -/
theorem spfsLookup_finds (hfix : Fixed env p i obj blocks G) (hs : Served p i blocks G w)
    {dentry : Dentry} (hname : IsDName dentry.name) :
    ∃ w', (spfsLookup env p dentry).run w =
        .ok ((childNamed obj (listedIds blocks) dentry.name).map fun id => { dentry with dInode := some id }) w' ∧
      Served p i blocks G w' := by
  obtain ⟨n, hn⟩ := hs.dir
  obtain ⟨w', hrun, hG', hdir, hstore⟩ := run_spfsForAllChildren_of_resolves hfix.io
    (keepsStore_spfsInodeByNameCb dentry.name) hn hfix.sb hfix.mode hfix.lock hs.lists hfix.fuel
    hfix.ids.toResolves (actsAs_spfsInodeByNameCb hfix.ids hname) hs.good none
  have hsb : ({ i with iCount := n } : SpfsInode).iSb ≠ .null := by
    rw [show ({ i with iCount := n } : SpfsInode).iSb = .sb from hfix.sb]
    decide
  obtain ⟨m, hm⟩ := hdir _ hn
  have hserved : Served p i blocks G w' := by
    refine ⟨⟨m, hm⟩, ?_, hG'⟩
    rw [hstore.bSize, hstore.disk]
    exact hs.lists
  refine ⟨w', ?_, hserved⟩
  have hok : (bugOn (({ i with iCount := n } : SpfsInode).iSb = .null) : Kernel Unit).run w = .ok () w := by
    rw [run_bugOn, if_neg hsb]
  have hbyName : (spfsInodeByName env p dentry).run w =
      .ok (childNamed obj (listedIds blocks) dentry.name) w' := by
    rw [spfsInodeByName, EStateM.run_bind_of_ok hrun, ← foldIds_byName]
    rfl
  rw [spfsLookup, EStateM.run_bind_of_ok (run_getInode_of hn), EStateM.run_bind_of_ok hok,
    EStateM.run_bind_of_ok hbyName]
  cases childNamed obj (listedIds blocks) dentry.name <;> rfl

end Lookup

/-! ## What additions leave -/

/-- The children can be read back from the block that the first of them was given. -/
def Readable (w₀ : World) (ids : List ℕ) : Prop :=
  ids.length ≤ 100 ∧ ReadsBack w₀.bSize ids (w₀.disk (spfsFreeAlloc w₀.sbi.freeList 1).1)

theorem slotWords_front (old : Block) (ids later : List ℕ) : slotWords ids old <+: slotWords (ids ++ later) old := by
  induction later using List.reverseRecOn with
  | nil => simp
  | append_singleton later id ih =>
    rw [← List.append_assoc, slotWords_snoc]
    exact ih.trans (List.prefix_append _ _)

/-- The children that were added first are read back too. -/
theorem ReadsBack.of_append {bSize : ℕ} {ids later : List ℕ} {old : Block} (hids : ∀ id ∈ ids, id ≠ 0)
    (h : ReadsBack bSize (ids ++ later) old) : ReadsBack bSize ids old := by
  set n := (bSize - 16) / 4
  set all := (slotWords (ids ++ later) old).take n with hall
  -- the words of the first slots, as far as a reader comes
  have hfront : (slotWords ids old).take n = all.take (2 * ids.length) := by
    have hwords := List.prefix_iff_eq_take.mp (slotWords_front old ids later)
    rw [length_slotWords] at hwords
    rw [hwords, hall, List.take_take, List.take_take, Nat.min_comm]
  have hids' : ids <+: all.filter (· ≠ 0) := (List.prefix_append ids later).trans h
  rw [ReadsBack, hfront]
  rcases Nat.le_total n (2 * ids.length) with hshort | hlong
  · have hlen : all.length ≤ 2 * ids.length := le_trans (by rw [hall]; exact List.length_take_le n _) hshort
    rwa [List.take_of_length_le hlen]
  · have hsub : ids.Sublist ((all.take (2 * ids.length)).filter (· ≠ 0)) := by
      have hfilter := (ids_sublist_slotWords ids old).filter (· ≠ 0)
      rw [List.filter_eq_self.mpr fun id hid => by simpa using hids id hid] at hfilter
      have hwhole : (slotWords ids old).take n = slotWords ids old :=
        List.take_of_length_le (by rw [length_slotWords]; exact hlong)
      rwa [← hfront, hwhole]
    have hsplit : all.filter (· ≠ 0) = (all.take (2 * ids.length)).filter (· ≠ 0) ++
        (all.drop (2 * ids.length)).filter (· ≠ 0) := by
      rw [← List.filter_append, List.take_append_drop]
    rw [hsplit, List.prefix_iff_eq_take, List.take_append_of_le_length hsub.length_le] at hids'
    exact List.prefix_iff_eq_take.mpr hids'

theorem Readable.of_append {w₀ : World} {ids later : List ℕ} (hids : ∀ id ∈ ids, id ≠ 0)
    (h : Readable w₀ (ids ++ later)) : Readable w₀ ids := by
  refine ⟨le_trans ?_ h.1, h.2.of_append hids⟩
  rw [List.length_append]
  exact Nat.le_add_right _ _

/-- Children were added to the empty directory `i`, and between the additions references were
taken. -/
inductive Grown (p : ℕ) (i : SpfsInode) (w₀ : World) : List ℕ → World → Prop
  | empty {w : World} {n : ℕ} (hp : w.inodes p = some { i with iCount := n }) (hstore : SameStore w₀ w) :
      Grown p i w₀ [] w
  | filled {ids : List ℕ} {w : World} {n s m : ℕ} {inodes : ℕ → Option SpfsInode}
      (hf : Filled p { i with iCount := n } { w₀ with inodes := inodes } ids w s m) : Grown p i w₀ ids w

section Grown

variable {env : Env} {p id : ℕ} {i : SpfsInode} {w₀ w w' : World} {ids : List ℕ}

/-- Calls that leave the directory and the device alone. -/
theorem Grown.quiet (h : Grown p i w₀ ids w) (hdir : KeepsDir p w w') (hstore : SameStore w w') :
    Grown p i w₀ ids w' := by
  cases h with
  | empty hp hstore₀ =>
    obtain ⟨n, hn⟩ := hdir _ hp
    exact .empty hn (trans_of SameStore hstore₀ hstore)
  | @filled _ _ _ s m _ hf =>
    obtain ⟨n, hn⟩ := hdir _ hf.dir
    have hf' : Filled p { i with iCount := n } { w₀ with inodes := w'.inodes } ids w' s m := by
      refine ⟨hstore.bSize.trans hf.bSize, hn, fun _ _ => rfl, hf.start_ne, ?_, hf.count, fun hshort => ?_⟩
      all_goals rw [hstore.disk]
      · exact hf.header
      · exact hf.small hshort
    exact .filled hf'

/-- One more child. -/
theorem Grown.add (h : Grown p i w₀ ids w) (hstart : i.start = 0) (hcap : i.capacity = 0)
    (hlock : i.lock = false) (hrun : (spfsAddChild env p id).run w = .ok 0 w') :
    Grown p i w₀ (ids ++ [id]) w' := by
  cases h with
  | @empty _ n hp hstore =>
    have hlock' : ({ i with iCount := n } : SpfsInode).lock = false := hlock
    obtain ⟨s, hf⟩ := filled_first hp hstart hcap hlock' hrun
    have hf' : Filled p { i with iCount := n } { w₀ with inodes := w.inodes } [id] w' s 1 := by
      refine ⟨hf.bSize.trans hstore.bSize, hf.dir, hf.others, hf.start_ne, hf.header, hf.count, fun hshort => ?_⟩
      have hsmall := hf.small hshort
      rw [hstore.sbi, hstore.disk, hstore.bSize] at hsmall
      exact hsmall
    exact .filled hf'
  | filled hf =>
    obtain ⟨s', m', hf'⟩ := hf.snoc hlock hrun
    exact .filled hf'

/-- The directory lists the children that were added, as long as they can be read back. -/
theorem Grown.lists (h : Grown p i w₀ ids w) (hstart : i.start = 0) (hcap : i.capacity = 0)
    (hids : ∀ id ∈ ids, id ≠ 0 ∧ id < 2 ^ 32) (hread : Readable w₀ ids) :
    ∃ start dirty n blocks, w.inodes p =
        some { i with start := start, capacity := ids.length, iDirty := dirty, iCount := n } ∧
      DirLists w.bSize w.disk start blocks ∧ listedIds blocks = ids ∧ blocks.length ≤ 1 := by
  cases h with
  | @empty _ n hp _ =>
    refine ⟨0, i.iDirty, n, [], ?_, .nil, rfl, Nat.zero_le _⟩
    rw [hp, ← hstart, List.length_nil, ← hcap]
  | @filled _ _ n s m _ hf =>
    obtain ⟨hshort, hback⟩ := hread
    obtain ⟨rfl, rfl, hsame⟩ := hf.small hshort
    set s := (spfsFreeAlloc w₀.sbi.freeList 1).1
    have htake : (entriesFrom w.bSize (w.disk s) 12).take ids.length = ids := by
      rw [hf.bSize, hsame.entries]
      exact (take_entriesFrom_iff hids _).mpr hback
    have hle : ids.length ≤ (entriesFrom w.bSize (w.disk s) 12).length := by
      have hlen := congrArg List.length htake
      rw [List.length_take] at hlen
      omega
    have hlists : DirLists w.bSize w.disk s [(s, ids)] := by
      have hcons := DirLists.cons hf.start_ne hf.header hle .nil
      rwa [htake] at hcons
    refine ⟨s, true, n, [(s, ids)], ?_, hlists, List.append_nil ids, le_rfl⟩
    rw [hf.dir, Nat.mod_eq_of_lt (by omega)]

end Grown

/-! ## Runs of calls -/

/-- Calls on a directory in any order: additions that succeed, calls of any number of readers,
each with a context of its own, and lookups. A run has the children that were added, the
contexts and the state. -/
inductive DirRun {ι : Type} [DecidableEq ι] (env : Env) (file : DirFile) (actors : ι → ℕ → Bool) (w₀ : World) :
    List ℕ → (ι → DirContext) → World → Prop
  | start : DirRun env file actors w₀ [] (fun k => ⟨actors k, 0, [], 0⟩) w₀
  | added {ids : List ℕ} {ctxs : ι → DirContext} {w w' : World} {id : ℕ} :
      DirRun env file actors w₀ ids ctxs w → (spfsAddChild env file.inode id).run w = .ok 0 w' →
      DirRun env file actors w₀ (ids ++ [id]) ctxs w'
  | iterated {ids : List ℕ} {ctxs : ι → DirContext} {w w' : World} (k : ι) {r : ℤ} {ctx : DirContext} :
      DirRun env file actors w₀ ids ctxs w → (spfsIterate env file (ctxs k)).run w = .ok (r, ctx) w' →
      DirRun env file actors w₀ ids (Function.update ctxs k ctx) w'
  | lookedUp {ids : List ℕ} {ctxs : ι → DirContext} {w w' : World} {dentry : Dentry} {found : Option Dentry} :
      DirRun env file actors w₀ ids ctxs w → IsDName dentry.name →
      (spfsLookup env file.inode dentry).run w = .ok found w' → DirRun env file actors w₀ ids ctxs w'

/-- An empty directory, and children that can be looked up, whatever is added to it. -/
structure NewDir (env : Env) (p : ℕ) (i : SpfsInode) (obj : ℕ → SpfsInode) (children : List ℕ)
    (G : World → Prop) (w₀ : World) : Prop where
  io : ∀ t s, env.ioOk t s = true
  fuel : env.fuel ≠ 0
  dir : w₀.inodes p = some i
  sb : i.iSb = .sb
  mode : sIsDir i.iMode = true
  lock : i.lock = false
  start : i.start = 0
  capacity : i.capacity = 0
  good : G w₀
  ids : ResolvesTo env p obj children G
  added : ∀ w w' id, G w → (spfsAddChild env p id).run w = .ok 0 w' → G w'
  names : ∀ id ∈ children, 0 ∈ (obj id).name.val
  valid : ∀ id ∈ children, id ≠ 0 ∧ id < 2 ^ 32

/-- The directory acts as the list of its children: the reader has emitted a prefix of them
and goes on from there, up to the last one unless it is refused one, and a lookup finds the
first one that has the name. -/
structure ActsAsList (env : Env) (file : DirFile) (i : SpfsInode) (obj : ℕ → SpfsInode) (ids : List ℕ)
    (ctx : DirContext) (w : World) : Prop where
  emitted : ctx.emitted <+: allEntries i file obj ids
  pos : ctx.pos = ctx.emitted.length
  iterate : ∃ r ctx' w', (spfsIterate env file ctx).run w = .ok (r, ctx') w' ∧
    ctx.emitted <+: ctx'.emitted ∧ ctx'.emitted <+: allEntries i file obj ids ∧
    (¬ Refused ctx ctx' → ctx'.emitted = allEntries i file obj ids)
  lookup : ∀ dentry : Dentry, IsDName dentry.name → ∃ w', (spfsLookup env file.inode dentry).run w =
    .ok ((childNamed obj ids dentry.name).map fun id => { dentry with dInode := some id }) w'

/-- What a run keeps: the directory has the children, they can be looked up, and each reader
has emitted the entries before its position. -/
structure DirInv {ι : Type} (p : ℕ) (i : SpfsInode) (file : DirFile) (obj : ℕ → SpfsInode)
    (G : World → Prop) (w₀ : World) (ids : List ℕ) (ctxs : ι → DirContext) (w : World) : Prop where
  grown : Grown p i w₀ ids w
  good : G w
  emitted : ∀ k, Emitted (allEntries i file obj ids) (ctxs k)

section Runs

variable {ι : Type} [DecidableEq ι] {env : Env} {file : DirFile} {i : SpfsInode} {obj : ℕ → SpfsInode}
  {children ids : List ℕ} {G : World → Prop} {actors : ι → ℕ → Bool} {ctxs : ι → DirContext}
  {w₀ w w' : World}

/-- More entries behind those that there were. -/
theorem Emitted.append {entries : List DirEntry} {ctx : DirContext} (h : Emitted entries ctx)
    (more : List DirEntry) : Emitted (entries ++ more) ctx where
  eq := by rw [List.take_append_of_le_length h.le, h.eq]
  le := by
    rw [List.length_append]
    exact le_trans h.le (Nat.le_add_right _ _)

/-- What was emitted later goes on where it was. -/
theorem Emits.front {entries : List DirEntry} {ctx ctx' : DirContext} (h : Emitted entries ctx)
    (h' : Emits entries ctx ctx') : ctx.emitted <+: ctx'.emitted := by
  rw [h.eq, h'.emitted.eq]
  exact List.take_prefix_take_left h'.pos

theorem Served.keepsDir {p : ℕ} {blocks : List (ℕ × List ℕ)} (h : Served p i blocks G w)
    (h' : Served p i blocks G w') : KeepsDir p w w' := by
  obtain ⟨n, hn⟩ := h.dir
  obtain ⟨n', hn'⟩ := h'.dir
  intro j hj
  obtain rfl := Option.some.inj (hn.symm.trans hj)
  exact ⟨n', hn'⟩

/-- The directory of a run serves its children. -/
theorem Grown.served (hnew : NewDir env file.inode i obj children G w₀) (h : Grown file.inode i w₀ ids w)
    (hG : G w) (hsub : ∀ id ∈ ids, id ∈ children) (hread : Readable w₀ ids) :
    ∃ j blocks, listedIds blocks = ids ∧ j.iIno = i.iIno ∧ Fixed env file.inode j obj blocks G ∧
      Served file.inode j blocks G w := by
  obtain ⟨start, dirty, n, blocks, hp, hlists, hlisted, hlen⟩ := h.lists hnew.start hnew.capacity
    (fun id hid => hnew.valid id (hsub id hid)) hread
  have hids : ResolvesTo env file.inode obj (listedIds blocks) G := by
    rw [hlisted]
    exact ⟨hnew.ids.mono hsub, fun w w' id hG hid => hnew.ids.known w w' id hG (hsub id hid)⟩
  have hshort := hread.1
  refine ⟨{ i with start := start, capacity := ids.length, iDirty := dirty }, blocks, hlisted, rfl, ?_, ?_⟩
  · refine ⟨hnew.io, ?_, hnew.sb, hnew.mode, hnew.lock, ?_, ?_, hids⟩
    · have hfuel := hnew.fuel
      omega
    · rw [hlisted]
    · show ids.length + 2 < 2 ^ 32
      omega
  · exact ⟨⟨n, hp⟩, hlists, hG⟩

/-- The invariant of runs. -/
theorem DirRun.inv (hnew : NewDir env file.inode i obj children G w₀)
    (h : DirRun env file actors w₀ ids ctxs w) (hsub : ∀ id ∈ ids, id ∈ children) (hread : Readable w₀ ids) :
    DirInv file.inode i file obj G w₀ ids ctxs w := by
  induction h with
  | start => exact ⟨.empty hnew.dir (refl_of SameStore w₀), hnew.good, fun k => ⟨rfl, Nat.zero_le _⟩⟩
  | @added ids ctxs w w' id _ hadd ih =>
    have hbefore : ∀ id' ∈ ids, id' ∈ children := fun id' hid => hsub id' (List.mem_append_left _ hid)
    obtain ⟨hgrown, hG, hemitted⟩ := ih hbefore (hread.of_append fun id' hid => (hnew.valid id' (hbefore id' hid)).1)
    refine ⟨hgrown.add hnew.start hnew.capacity hnew.lock hadd, hnew.added w w' id hG hadd, fun k => ?_⟩
    have hmore : allEntries i file obj (ids ++ [id]) = allEntries i file obj ids ++ [(obj id).entry] := by
      rw [allEntries, allEntries, List.map_append, List.append_assoc]
      rfl
    rw [hmore]
    exact (hemitted k).append _
  | @iterated ids ctxs w w' k r ctx _ hrun ih =>
    obtain ⟨hgrown, hG, hemitted⟩ := ih hsub hread
    obtain ⟨j, blocks, rfl, hino, hfix, hserved⟩ := hgrown.served hnew hG hsub hread
    have hentries : allEntries j file obj (listedIds blocks) = allEntries i file obj (listedIds blocks) := by
      rw [allEntries, allEntries, hino]
    have hnames : ∀ id ∈ listedIds blocks, 0 ∈ (obj id).name.val := fun id hid => hnew.names id (hsub id hid)
    have hk := hemitted k
    rw [← hentries] at hk
    obtain ⟨r', ctx', w₁, hrun', hserved', hemits, -⟩ := spfsIterate_emits hfix hnames hserved hk
    rw [hrun] at hrun'
    cases hrun'
    have hstore : SameStore w w' := (spfsIterate_reading env file (ctxs k)).of_ok hrun
    refine ⟨hgrown.quiet (hserved.keepsDir hserved') hstore, hserved'.good, fun k' => ?_⟩
    by_cases hk' : k' = k
    · rw [hk', Function.update_self, ← hentries]
      exact hemits.emitted
    · rw [Function.update_of_ne hk']
      exact hemitted k'
  | @lookedUp ids ctxs w w' dentry found _ hname hrun ih =>
    obtain ⟨hgrown, hG, hemitted⟩ := ih hsub hread
    obtain ⟨j, blocks, rfl, -, hfix, hserved⟩ := hgrown.served hnew hG hsub hread
    obtain ⟨w₁, hrun', hserved'⟩ := spfsLookup_finds hfix hserved hname
    rw [hrun] at hrun'
    cases hrun'
    have hstore : SameStore w w' := (spfsLookup_reading env file.inode dentry).of_ok hrun
    exact ⟨hgrown.quiet (hserved.keepsDir hserved') hstore, hserved'.good, hemitted⟩

/-- In any order of additions, lookups and calls of any number of readers, a new directory acts
as the list of what was added, as long as this can be read back: readers lose and repeat
nothing of what others add between their calls, and lookups find it at once. -/
theorem dirRun_actsAsList (hnew : NewDir env file.inode i obj children G w₀)
    (h : DirRun env file actors w₀ ids ctxs w) (hsub : ∀ id ∈ ids, id ∈ children) (hread : Readable w₀ ids)
    (k : ι) : ActsAsList env file i obj ids (ctxs k) w := by
  obtain ⟨hgrown, hG, hemitted⟩ := h.inv hnew hsub hread
  obtain ⟨j, blocks, rfl, hino, hfix, hserved⟩ := hgrown.served hnew hG hsub hread
  have hentries : allEntries j file obj (listedIds blocks) = allEntries i file obj (listedIds blocks) := by
    rw [allEntries, allEntries, hino]
  have hnames : ∀ id ∈ listedIds blocks, 0 ∈ (obj id).name.val := fun id hid => hnew.names id (hsub id hid)
  have hk := hemitted k
  rw [← hentries] at hk
  obtain ⟨r, ctx', w₁, hrun, -, hemits, hall, -⟩ := spfsIterate_emits hfix hnames hserved hk
  rw [hentries] at hk hemits hall
  refine ⟨hk.front.1, hk.front.2, ⟨r, ctx', w₁, hrun, hemits.front hk, hemits.emitted.front.1, fun hno => ?_⟩,
    fun dentry hname => ?_⟩
  · rw [hemits.emitted.eq, hall hno, List.take_length]
  · obtain ⟨w₂, hlookup, -⟩ := spfsLookup_finds hfix hserved hname
    exact ⟨w₂, hlookup⟩

end Runs

/-! ## Lookups and entries -/

section Agree

variable {env : Env} {file : DirFile} {i : SpfsInode} {obj : ℕ → SpfsInode}
  {blocks : List (ℕ × List ℕ)} {G : World → Prop} {w : World}

/-- The first entry behind the dots that has the name. -/
def entryNamed (emitted : List DirEntry) (name : List UInt8) : Option DirEntry :=
  (emitted.drop 2).find? fun e => e.name == name

/-- The entry of the first child with a name is the first entry with it. -/
theorem entryNamed_allEntries (i : SpfsInode) (file : DirFile) (obj : ℕ → SpfsInode) (ids : List ℕ)
    (name : List UInt8) :
    entryNamed (allEntries i file obj ids) name = (childNamed obj ids name).map fun id => (obj id).entry :=
  List.find?_map

/-- What is found in front is found in the whole. -/
theorem entryNamed_of_front {emitted entries : List DirEntry} (h : emitted <+: entries) {name : List UInt8}
    {e : DirEntry} (he : entryNamed emitted name = some e) : entryNamed entries name = some e := by
  obtain ⟨rest, rfl⟩ := h
  rw [entryNamed, List.drop_append, List.find?_append]
  rw [entryNamed] at he
  rw [he]
  rfl

/-- Lookups and reading in pieces agree on every directory whose children are known, at any
point of the reading: a name among the entries that were emitted behind the dots leads to the
child of the first of them, and when all were emitted any other name leads to none. -/
theorem spfsLookup_agrees_iterate (hfix : Fixed env file.inode i obj blocks G)
    (hnames : ∀ id ∈ listedIds blocks, 0 ∈ (obj id).name.val) (hs : Served file.inode i blocks G w)
    (actor : ℕ → Bool) (k : ℕ) {dentry : Dentry} (hname : IsDName dentry.name) :
    ∃ ctx found w₁ w₂, (iterateTimes env file k ⟨actor, 0, [], 0⟩).run w = .ok ctx w₁ ∧
      (spfsLookup env file.inode dentry).run w₁ =
        .ok (found.map fun id => { dentry with dInode := some id }) w₂ ∧
      (∀ e, entryNamed ctx.emitted dentry.name = some e → found.map (fun id => (obj id).entry) = some e) ∧
      (ctx.emitted = allEntries i file obj (listedIds blocks) →
        entryNamed ctx.emitted dentry.name = none → found = none) := by
  have hstart : Emitted (allEntries i file obj (listedIds blocks)) ⟨actor, 0, [], 0⟩ := ⟨rfl, Nat.zero_le _⟩
  obtain ⟨ctx, w₁, hbefore, hs₁, h₁⟩ := iterateTimes_emits hfix hnames hs hstart k
  obtain ⟨w₂, hlookup, -⟩ := spfsLookup_finds hfix hs₁ hname
  refine ⟨ctx, _, w₁, w₂, hbefore, hlookup, fun e he => ?_, fun hend hnone => ?_⟩
  · rw [← entryNamed_allEntries i file]
    exact entryNamed_of_front h₁.front.1 he
  · rw [hend, entryNamed_allEntries] at hnone
    exact Option.map_eq_none_iff.mp hnone

end Agree

/-! ## A directory with two children -/

/-- Two files with names of one letter. -/
def letterFile (ino : ℕ) : SpfsInode :=
  namedFile (nameArray [if ino = 5 then 0x61 else 0x62] (by simp [spookyFsNameMax])) ino

theorem letterFile_ends (ino : ℕ) : 0 ∈ (letterFile ino).name.val := by
  refine List.mem_append_right _ (List.mem_replicate.mpr ⟨?_, rfl⟩)
  show 256 - 1 ≠ 0
  decide

theorem findable_letterFile (ids : List ℕ) : Findable letterFile ids :=
  fun id hid => findable_namedFile _ ids id hid

theorem resolvesTo_allCached (env : Env) (p : ℕ) {obj : ℕ → SpfsInode} {ids : List ℕ} (hfind : Findable obj ids) :
    ResolvesTo env p obj ids (AllCached obj ids) where
  toResolves := resolves_allCached env p hfind
  known w w' id hG hid hrun := by
    obtain ⟨n, b, hj⟩ := hG id hid
    obtain ⟨hcached, hnew⟩ := hfind id hid
    rw [run_spfsInodeById_cached hj hcached hnew] at hrun
    cases hrun
    exact ⟨_, Function.update_self _ _ _, rfl, rfl, rfl⟩

/-- An empty directory, and two files in the cache. -/
def lettersWorld : World :=
  ((freshWorld.setInode 1 (plainDir 1)).setInode 5 (letterFile 5)).setInode 6 (letterFile 6)

theorem newDir_lettersWorld :
    NewDir (.calm 9) 1 (plainDir 1) letterFile [5, 6] (AllCached letterFile [5, 6]) lettersWorld where
  io _ _ := rfl
  fuel := by decide
  dir := rfl
  sb := rfl
  mode := by decide
  lock := rfl
  start := rfl
  capacity := rfl
  good := by
    intro id hid
    rcases List.mem_pair.mp hid with rfl | rfl
    · exact ⟨1, false, rfl⟩
    · exact ⟨1, false, rfl⟩
  ids := resolvesTo_allCached _ 1 (findable_letterFile _)
  added w w' id hG hrun := by
    have hothers : OnlyInode 1 w w' :=
      (within_spfsAddChild (fun w i => onlyInode_setInode w 1 i) (.calm 9) id).of_ok hrun
    intro id' hid'
    obtain ⟨n, b, hj⟩ := hG id' hid'
    have hne : id' ≠ 1 := by
      rcases List.mem_pair.mp hid' with rfl | rfl <;> decide
    exact ⟨n, b, (hothers id' hne).trans hj⟩
  names id _ := letterFile_ends id
  valid := by decide

theorem readable_lettersWorld : Readable lettersWorld [5, 6] := by
  have hblock : lettersWorld.disk (spfsFreeAlloc lettersWorld.sbi.freeList 1).1 = fun _ => 0 := rfl
  refine ⟨by decide, ?_⟩
  rw [hblock]
  decide

/-- One child is added, a reader reads, and another child is added. -/
theorem dirRun_actsAsList_letters : ∃ ctxs w,
    DirRun (.calm 9) rootFile (fun (_ : Bool) _ => true) lettersWorld [5, 6] ctxs w ∧
      ActsAsList (.calm 9) rootFile (plainDir 1) letterFile [5, 6] (ctxs true) w := by
  have hio : ∀ t s, (Env.calm 9).ioOk t s = true := fun _ _ => rfl
  have hboth : Readable lettersWorld ([5] ++ [6]) := readable_lettersWorld
  have hone : Readable lettersWorld [5] := hboth.of_append (by decide)
  obtain ⟨w₁, hadd₁⟩ := adds_first hio (newDir_lettersWorld.dir) rfl rfl (by decide) 5
  have hrun₁ : DirRun (.calm 9) rootFile (fun (_ : Bool) _ => true) lettersWorld [5] _ w₁ := .added .start hadd₁
  obtain ⟨r, ctx, w₂, hiterate, -⟩ := (dirRun_actsAsList newDir_lettersWorld hrun₁ (by decide) hone true).iterate
  have hrun₂ := hrun₁.iterated true hiterate
  obtain ⟨hgrown, -, -⟩ := hrun₂.inv newDir_lettersWorld (by decide) hone
  cases hgrown with
  | filled hf =>
    have hm := (hf.small (by decide)).1
    have hsize : w₂.bSize = 4096 := hf.bSize
    obtain ⟨w₃, hadd₂⟩ := hf.adds hio (by decide) rfl (by rw [hm]; decide) (by rw [hm, hsize]; decide) 6
    have hrun₃ := hrun₂.added hadd₂
    exact ⟨_, w₃, hrun₃, dirRun_actsAsList newDir_lettersWorld hrun₃ (by decide) readable_lettersWorld true⟩

theorem spfsLookup_agrees_iterate_oneChild :
    ∃ ctx w₁ w₂, ∃ found : Option ℕ,
      (iterateTimes (.calm 9) rootFile 1 ⟨fun _ => true, 0, [], 0⟩).run (oneChildWorld shortName) = .ok ctx w₁ ∧
      (spfsLookup (.calm 9) 1 ⟨[0x61], none⟩).run w₁ = .ok (found.map fun id => ⟨[0x61], some id⟩) w₂ := by
  have hnames : ∀ id ∈ listedIds [(50, [5])], 0 ∈ (namedFile shortName id).name.val := by
    intro id _
    exact List.mem_cons_of_mem _ (List.mem_replicate.mpr ⟨by decide, rfl⟩)
  have hname : IsDName (⟨[0x61], none⟩ : Dentry).name := ⟨by decide, by decide⟩
  have hs : Served rootFile.inode { plainDir 1 with start := 50, capacity := 1 } [(50, [5])]
      (AllCached (namedFile shortName) [5]) (oneChildWorld shortName) := served_oneChildWorld shortName
  obtain ⟨ctx, found, w₁, w₂, hread, hlookup, -⟩ := spfsLookup_agrees_iterate
    (fixed_oneChildWorld shortName) hnames hs (fun _ => true) 1 hname
  exact ⟨ctx, w₁, w₂, found, hread, hlookup⟩

end Spfs
