-- SUMMARY: The free list on a device: headers, tables of entries, the chains a reader can follow, and what the loader makes of them.
import Spfs.FreeList

/-!
# The free list on a device

A block of the free list is a header and a table of entries. A reader is given by
where it looks for a block and by where it has to stop (`FreeListView`). The chain
it follows is well formed, with the entries it lists, or it runs into a bad block,
or it never ends. `spfs_free_init` accepts exactly the well formed chains of its
view and rejects exactly the broken ones.
-/

namespace Spfs

/-- `struct spfs_free_list` of `mkfs.spfs.h`. -/
structure FreeListHeader where
  magic : ℕ
  entries : ℕ
  next : ℕ
deriving DecidableEq, Repr

/-- The header at a byte of a device. -/
def headerAt (data : Block) (pos : ℕ) : FreeListHeader where
  magic := beDecode (data.read pos 4)
  entries := beDecode (data.read (pos + 4) 4)
  next := beDecode (data.read (pos + 8) 4)

def freeEntryAt (data : Block) (pos : ℕ) : FreeNode where
  start := beDecode (data.read pos 4)
  blocks := beDecode (data.read (pos + 4) 4)

/-- The table of `n` entries from `pos` on. -/
def entriesAt (data : Block) : ℕ → ℕ → List FreeNode
  | _, 0 => []
  | pos, n + 1 => freeEntryAt data pos :: entriesAt data (pos + 8) n

/-- How a reader sees the blocks of a free list: the address of a block and the end
of the bytes that it can read there. -/
structure FreeListView where
  data : Block
  addr : ℕ → ℕ
  limit : ℕ → ℕ

namespace FreeListView

variable (v : FreeListView)

def header (s : ℕ) : FreeListHeader := headerAt v.data (v.addr s)

def table (s : ℕ) : List FreeNode := entriesAt v.data (v.addr s + 12) (v.header s).entries

/-- The header has the magic number and its table can be read. -/
def Good (s : ℕ) : Prop :=
  (v.header s).magic = spookyFsFlMagic ∧ v.addr s + 12 + 8 * (v.header s).entries ≤ v.limit s

instance (s : ℕ) : Decidable (v.Good s) := inferInstanceAs (Decidable (_ ∧ _))

/-- From block `s` on the chain ends and lists the entries. -/
inductive WellFormed : ℕ → List FreeNode → Prop where
  | last {s : ℕ} : v.Good s → (v.header s).next = 0 → WellFormed s (v.table s)
  | next {s : ℕ} {es : List FreeNode} : v.Good s → (v.header s).next ≠ 0 →
      WellFormed (v.header s).next es → WellFormed s (v.table s ++ es)

/-- From block `s` on the chain reaches a block that is not good. -/
inductive Broken : ℕ → Prop where
  | bad {s : ℕ} : ¬ v.Good s → Broken s
  | next {s : ℕ} : v.Good s → (v.header s).next ≠ 0 → Broken (v.header s).next → Broken s

variable {v}

theorem WellFormed.unique {s : ℕ} {es es' : List FreeNode} (h : v.WellFormed s es)
    (h' : v.WellFormed s es') : es = es' := by
  induction h generalizing es' with
  | last _ hnext =>
    cases h' with
    | last => rfl
    | next _ hne => exact absurd hnext hne
  | next _ hne _ ih =>
    cases h' with
    | last _ hnext => exact absurd hnext hne
    | next _ _ hrest => rw [ih hrest]

theorem WellFormed.not_broken {s : ℕ} {es : List FreeNode} (h : v.WellFormed s es) :
    ¬ v.Broken s := by
  induction h with
  | last hgood hnext =>
    rintro (hbad | ⟨-, hne, -⟩)
    · exact hbad hgood
    · exact hne hnext
  | next hgood _ _ ih =>
    rintro (hbad | ⟨-, -, hrest⟩)
    · exact hbad hgood
    · exact ih hrest

end FreeListView

/-! ## The loader -/

/-- The view of the kernel: blocks at multiples of the block size, read one at a time. -/
def kernelView (bs : ℕ) (data : Block) : FreeListView where
  data := data
  addr s := s * bs
  limit s := s * bs + bs

theorem run_spfsReadHeader {bSize : ℕ} {b : Block} (h : 512 ≤ bSize) :
    (spfsReadHeader bSize b).run 0 =
      .ok (if (headerAt b 0).magic = spookyFsFlMagic then
          .ok ((headerAt b 0).entries, (headerAt b 0).next)
        else .error (-EINVAL)) 12 := by
  simp (disch := omega) only [spfsReadHeader, EStateM.run_bind_match, run_spfsSbReadU32,
    run_spfsSbReadSector, Nat.zero_add, Nat.reduceAdd, EStateM.run_ite]
  by_cases hmagic : (headerAt b 0).magic = spookyFsFlMagic
  · have heq : ¬ beDecode (b.read 0 4) ≠ spookyFsFlMagic := not_not.mpr hmagic
    rw [if_neg heq, if_pos hmagic]
    rfl
  · have hne : beDecode (b.read 0 4) ≠ spookyFsFlMagic := hmagic
    rw [if_pos hne, if_neg hmagic]
    rfl

theorem run_spfsReadEntry {bSize pos : ℕ} {b : Block} (h : pos + 8 ≤ bSize) :
    (spfsReadEntry bSize b).run pos = .ok (some (freeEntryAt b pos)) (pos + 8) := by
  simp (disch := omega) only [spfsReadEntry, EStateM.run_bind_match, run_spfsSbReadU32,
    run_spfsSbReadSector]
  rfl

theorem run_spfsReadEntry_short {bSize pos : ℕ} {b : Block} (h : bSize < pos + 8)
    (hpos : pos ≤ bSize) : (spfsReadEntry bSize b).run pos = .ok none pos := by
  have hsector : (spfsSbReadSector bSize b).run pos = .ok none pos := run_readField_short h hpos
  rw [spfsReadEntry, EStateM.run_bind_of_ok hsector]
  rfl

section Loader

variable {env : Env} {w : World} {data : Block}

theorem run_spfsInitFreeListEntry (henv : env.Grants) {s pos : ℕ} (hpos : pos + 8 ≤ w.bSize) :
    (spfsInitFreeListEntry env s pos).run w =
      .ok (some (freeEntryAt (w.disk s) pos), pos + 8) (w.addEvent .kzalloc) := by
  rw [spfsInitFreeListEntry, EStateM.run_bind_of_ok (EStateM.run_get _), henv.kzalloc,
    EStateM.run_bind_of_ok (run_emit _ _), if_neg (by decide), run_parseBuf]
  simp only [World.addEvent_bSize, World.addEvent_disk, run_spfsReadEntry hpos]

theorem run_spfsInitFreeListEntry_short (henv : env.Grants) {s pos : ℕ}
    (hshort : w.bSize < pos + 8) (hpos : pos ≤ w.bSize) :
    (spfsInitFreeListEntry env s pos).run w = .ok (none, pos) (w.addEvent .kzalloc) := by
  rw [spfsInitFreeListEntry, EStateM.run_bind_of_ok (EStateM.run_get _), henv.kzalloc,
    EStateM.run_bind_of_ok (run_emit _ _), if_neg (by decide), run_parseBuf]
  simp only [World.addEvent_bSize, World.addEvent_disk, run_spfsReadEntry_short hshort hpos]

/-- A table that lies in its block is pushed on the list, entry by entry. -/
theorem run_spfsFreeInitEntries (henv : env.Grants) (s n pos : ℕ)
    (hpos : pos + 8 * n ≤ w.bSize) :
    ∃ w', (spfsFreeInitEntries env s n pos).run w = .ok true w' ∧
      OnlyLogs (w.setFreeList ((entriesAt (w.disk s) pos n).foldl FreeList.push
        w.sbi.freeList)) w' := by
  induction n generalizing w pos with
  | zero => exact ⟨w, rfl, [], rfl⟩
  | succ n ih =>
    let node := freeEntryAt (w.disk s) pos
    let w₁ := (w.addEvent .kzalloc).setFreeList (w.sbi.freeList.push node)
    obtain ⟨w', hrun, es, hlogs⟩ := @ih w₁ (pos + 8) (by
      show pos + 8 + 8 * n ≤ w.bSize
      omega)
    refine ⟨w', ?_, es ++ [.kzalloc], ?_⟩
    · rw [spfsFreeInitEntries, EStateM.run_bind_of_ok
        (run_spfsInitFreeListEntry henv (by omega))]
      exact hrun
    · rw [hlogs]
      simp [World.setFreeList, w₁, node, entriesAt, World.addEvent]

/-- A table that goes on past its block stops the loader. -/
theorem run_spfsFreeInitEntries_short (henv : env.Grants) (s n pos : ℕ) (hpos : pos ≤ w.bSize)
    (hshort : w.bSize < pos + 8 * n) :
    ∃ w', (spfsFreeInitEntries env s n pos).run w = .ok false w' := by
  induction n generalizing w pos with
  | zero => omega
  | succ n ih =>
    rw [spfsFreeInitEntries]
    rcases Nat.lt_or_ge w.bSize (pos + 8) with h | h
    · rw [EStateM.run_bind_of_ok (run_spfsInitFreeListEntry_short henv h hpos)]
      exact ⟨_, rfl⟩
    · rw [EStateM.run_bind_of_ok (run_spfsInitFreeListEntry henv h)]
      refine ih (w := (w.addEvent .kzalloc).setFreeList _) (pos + 8) h ?_
      show w.bSize < pos + 8 + 8 * n
      omega

/-- The header and the table of a block are those of the device. -/
theorem World.Shows.headerAt (h : w.Shows data) (s : ℕ) :
    headerAt (w.disk s) 0 = (kernelView w.bSize data).header s := by
  have hle := w.le_bSize
  simp only [Spfs.headerAt, FreeListView.header, kernelView,
    h.read (by omega : 0 + 4 ≤ w.bSize), h.read (by omega : 0 + 4 + 4 ≤ w.bSize),
    h.read (by omega : 0 + 8 + 4 ≤ w.bSize)]
  rfl

theorem World.Shows.entriesAt (h : w.Shows data) (s n pos : ℕ) (hpos : pos + 8 * n ≤ w.bSize) :
    entriesAt (w.disk s) pos n = entriesAt data (s * w.bSize + pos) n := by
  induction n generalizing pos with
  | zero => rfl
  | succ n ih =>
    rw [Spfs.entriesAt, Spfs.entriesAt, ih _ (by omega), freeEntryAt, freeEntryAt,
      h.read (by omega), h.read (by omega)]
    rfl

/-- The loader up to the table of a block. -/
theorem run_spfsFreeInitLit (henv : env.Grants) (hdev : w.Shows data) {fuel s : ℕ} (hs : s ≠ 0) :
    (spfsFreeInitLit env (fuel + 1) s).run w =
      if ((kernelView w.bSize data).header s).magic = spookyFsFlMagic then
        (do
          if !(← spfsFreeInitEntries env s ((kernelView w.bSize data).header s).entries 12) then
            return 1
          brelse s
          spfsFreeInitLit env fuel ((kernelView w.bSize data).header s).next).run
            (w.addEvent (.bread s true))
      else .ok (-EINVAL) (w.addEvent (.bread s true)) := by
  have hbread : (sbBread env s).run w = .ok true (w.addEvent (.bread s true)) :=
    run_sbBread_ok (henv.io _ _)
  have hheader : (parseBuf s 0 spfsReadHeader).run (w.addEvent (.bread s true)) =
      .ok (if ((kernelView w.bSize data).header s).magic = spookyFsFlMagic then
          .ok (((kernelView w.bSize data).header s).entries,
            ((kernelView w.bSize data).header s).next)
        else .error (-EINVAL), 12) (w.addEvent (.bread s true)) := by
    rw [run_parseBuf]
    simp only [World.addEvent_bSize, World.addEvent_disk, run_spfsReadHeader w.le_bSize,
      hdev.headerAt]
  rw [spfsFreeInitLit]
  case x_2 => exact hs
  rw [EStateM.run_check_of_true hbread, EStateM.run_bind_of_ok hheader]
  by_cases hmagic : ((kernelView w.bSize data).header s).magic = spookyFsFlMagic
  · rw [if_pos hmagic, if_pos hmagic]
  · rw [if_neg hmagic, if_neg hmagic]
    rfl

/-- The loader rejects a bad block. -/
theorem spfsFreeInitLit_bad (henv : env.Grants) (hdev : w.Shows data) (fuel : ℕ) {s : ℕ} (hs : s ≠ 0)
    (hbad : ¬ (kernelView w.bSize data).Good s) :
    ∃ res w', (spfsFreeInitLit env (fuel + 1) s).run w = .ok res w' ∧ res ≠ 0 := by
  have hle := w.le_bSize
  rw [run_spfsFreeInitLit henv hdev hs]
  by_cases hmagic : ((kernelView w.bSize data).header s).magic = spookyFsFlMagic
  · rw [if_pos hmagic]
    have hshort : w.bSize < 12 + 8 * ((kernelView w.bSize data).header s).entries := by
      by_contra h
      refine hbad ⟨hmagic, ?_⟩
      show s * w.bSize + 12 + _ ≤ s * w.bSize + w.bSize
      omega
    obtain ⟨w', hrun⟩ := run_spfsFreeInitEntries_short (w := w.addEvent (.bread s true)) henv s _ 12
      (by simp; omega) hshort
    rw [EStateM.run_check_of_false hrun]
    exact ⟨1, w', rfl, by decide⟩
  · rw [if_neg hmagic]
    exact ⟨_, _, rfl, by decide⟩

/-- The loader pushes the table of a good block and goes on. -/
theorem spfsFreeInitLit_good (henv : env.Grants) (hdev : w.Shows data) {s : ℕ} (hs : s ≠ 0)
    (hgood : (kernelView w.bSize data).Good s) :
    ∃ w', OnlyLogs (w.setFreeList (((kernelView w.bSize data).table s).foldl FreeList.push
        w.sbi.freeList)) w' ∧
      ∀ fuel, (spfsFreeInitLit env (fuel + 1) s).run w =
        (spfsFreeInitLit env fuel ((kernelView w.bSize data).header s).next).run w' := by
  have hfits : 12 + 8 * ((kernelView w.bSize data).header s).entries ≤ w.bSize := by
    have : s * w.bSize + 12 + 8 * _ ≤ s * w.bSize + w.bSize := hgood.2
    omega
  obtain ⟨w', hrun, hlogs⟩ := run_spfsFreeInitEntries (w := w.addEvent (.bread s true)) henv s _ 12
    hfits
  have htable : entriesAt (w.disk s) 12 ((kernelView w.bSize data).header s).entries =
      (kernelView w.bSize data).table s := hdev.entriesAt s _ 12 hfits
  refine ⟨w'.addEvent (.brelse s), ?_, fun fuel => ?_⟩
  · rw [World.addEvent_disk, htable] at hlogs
    obtain ⟨es, rfl⟩ := hlogs
    exact ⟨.brelse s :: es ++ [.bread s true], by simp [World.addEvent, World.setFreeList]⟩
  · rw [run_spfsFreeInitLit henv hdev hs, if_pos hgood.1, EStateM.run_check_of_true hrun]
    rfl

theorem World.Shows.of_freeList {fl : FreeList} {w' : World} (hdev : w.Shows data)
    (h : OnlyLogs (w.setFreeList fl) w') : w'.Shows data ∧ w'.bSize = w.bSize := by
  refine ⟨fun s i hi => ?_, h.bSize⟩
  rw [h.bSize] at hi ⊢
  rw [h.disk]
  exact hdev s i hi

theorem spfsFreeInitLit_zero (env : Env) (fuel : ℕ) (w : World) :
    (spfsFreeInitLit env fuel 0).run w = .ok 0 w := by
  cases fuel <;> rfl

/-- The loader returns 0 with the entries of a chain, the last of them first, or it
returns an error from a broken one. -/
def Loads (w : World) (data : Block) (s : ℕ) (res : ℤ) (w' : World) : Prop :=
  (res = 0 ∧ ∃ es, (s = 0 ∧ es = [] ∨ s ≠ 0 ∧ (kernelView w.bSize data).WellFormed s es) ∧
      w'.sbi.freeList = es.foldl FreeList.push w.sbi.freeList) ∨
    (res ≠ 0 ∧ s ≠ 0 ∧ (kernelView w.bSize data).Broken s)

/-- What a loader that returns has found. -/
theorem spfsFreeInitLit_loads (henv : env.Grants) {fuel s : ℕ} {res : ℤ} {w' : World}
    (hdev : w.Shows data) (h : (spfsFreeInitLit env fuel s).run w = .ok res w') :
    Loads w data s res w' := by
  induction fuel generalizing s w with
  | zero =>
    cases s with
    | zero =>
      cases h
      exact .inl ⟨rfl, [], .inl ⟨rfl, rfl⟩, rfl⟩
    | succ s => cases h
  | succ fuel ih =>
    by_cases hs : s = 0
    · subst hs
      cases h
      exact .inl ⟨rfl, [], .inl ⟨rfl, rfl⟩, rfl⟩
    by_cases hgood : (kernelView w.bSize data).Good s
    · obtain ⟨w₁, hlogs, hrun⟩ := spfsFreeInitLit_good henv hdev hs hgood
      obtain ⟨hdev₁, hb⟩ := hdev.of_freeList hlogs
      rw [hrun] at h
      have hrest := ih hdev₁ h
      rw [Loads, hb, hlogs.sbi] at hrest
      obtain ⟨rfl, es, ⟨hnext, rfl⟩ | ⟨hne, hwell⟩, hfl⟩ | ⟨hres, hne, hbroken⟩ := hrest
      · exact .inl ⟨rfl, _, .inr ⟨hs, .last hgood hnext⟩, hfl⟩
      · refine .inl ⟨rfl, _, .inr ⟨hs, .next hgood hne hwell⟩, ?_⟩
        rw [hfl, List.foldl_append]
        rfl
      · exact .inr ⟨hres, hs, .next hgood hne hbroken⟩
    · obtain ⟨res', w'', hrun, hres⟩ := spfsFreeInitLit_bad henv hdev fuel hs hgood
      rw [hrun] at h
      cases h
      exact .inr ⟨hres, hs, .bad hgood⟩

/-- A chain that has an end, and how many of its blocks a reader visits. -/
inductive FreeListView.EndsWithin (v : FreeListView) : ℕ → ℕ → Prop where
  | bad {s n : ℕ} : ¬ v.Good s → EndsWithin v (n + 1) s
  | last {s n : ℕ} : v.Good s → (v.header s).next = 0 → EndsWithin v (n + 1) s
  | next {s n : ℕ} : v.Good s → (v.header s).next ≠ 0 → EndsWithin v n (v.header s).next →
      EndsWithin v (n + 1) s

theorem FreeListView.WellFormed.endsWithin {v : FreeListView} {s : ℕ} {es : List FreeNode}
    (h : v.WellFormed s es) : ∃ n, v.EndsWithin n s := by
  induction h with
  | last hgood hnext => exact ⟨1, .last hgood hnext⟩
  | next hgood hne _ ih =>
    obtain ⟨n, hn⟩ := ih
    exact ⟨n + 1, .next hgood hne hn⟩

theorem FreeListView.Broken.endsWithin {v : FreeListView} {s : ℕ} (h : v.Broken s) :
    ∃ n, v.EndsWithin n s := by
  induction h with
  | bad hbad => exact ⟨1, .bad hbad⟩
  | next hgood hne _ ih =>
    obtain ⟨n, hn⟩ := ih
    exact ⟨n + 1, .next hgood hne hn⟩

theorem FreeListView.EndsWithin.mono {v : FreeListView} {m n s : ℕ} (h : v.EndsWithin n s)
    (hle : n ≤ m) : v.EndsWithin m s := by
  induction h generalizing m with
  | bad hbad =>
    obtain ⟨m, rfl⟩ := Nat.exists_eq_add_of_le' (Nat.le_of_add_left_le hle)
    exact .bad hbad
  | last hgood hnext =>
    obtain ⟨m, rfl⟩ := Nat.exists_eq_add_of_le' (Nat.le_of_add_left_le hle)
    exact .last hgood hnext
  | next hgood hne _ ih =>
    obtain ⟨m, rfl⟩ := Nat.exists_eq_add_of_le' (Nat.le_of_add_left_le hle)
    exact .next hgood hne (ih (by omega))

/-- The loader comes to the end of every chain that has one. -/
theorem spfsFreeInitLit_returns (henv : env.Grants) {v : FreeListView} {s n : ℕ}
    (h : v.EndsWithin n s) (hs : s ≠ 0) (hdev : w.Shows data) (hv : v = kernelView w.bSize data) :
    ∃ res w', (spfsFreeInitLit env n s).run w = .ok res w' := by
  induction h generalizing w with
  | @bad s n hbad =>
    subst hv
    obtain ⟨res, w', hrun, -⟩ := spfsFreeInitLit_bad henv hdev n hs hbad
    exact ⟨res, w', hrun⟩
  | @last s n hgood hnext =>
    subst hv
    obtain ⟨w₁, -, hrun⟩ := spfsFreeInitLit_good henv hdev hs hgood
    rw [hrun, hnext, spfsFreeInitLit_zero]
    exact ⟨_, _, rfl⟩
  | @next s n hgood hne _ ih =>
    subst hv
    obtain ⟨w₁, hlogs, hrun⟩ := spfsFreeInitLit_good henv hdev hs hgood
    obtain ⟨hdev₁, hb⟩ := hdev.of_freeList hlogs
    rw [hrun]
    exact ih hne hdev₁ (by rw [hb])

theorem root_foldl_push (es : List FreeNode) (fl : FreeList) :
    (es.foldl FreeList.push fl).root = es.reverse ++ fl.root := by
  induction es generalizing fl with
  | nil => rfl
  | cons e es ih =>
    rw [List.foldl_cons, ih]
    simp [FreeList.push]

/-- What `spfs_free_init` has found when it returns: the list of a well formed chain
in reverse order, or a broken chain. -/
theorem spfsFreeInit_loads (henv : env.Grants) {s : ℕ} {res : ℤ} {w' : World}
    (hdev : w.Shows data) (h : (spfsFreeInit env s).run w = .ok res w') :
    (res = 0 ∧ ∃ es, (s = 0 ∧ es = [] ∨ s ≠ 0 ∧ (kernelView w.bSize data).WellFormed s es) ∧
      w'.sbi.freeList = es.foldl FreeList.push ⟨0, []⟩) ∨
      (res ≠ 0 ∧ s ≠ 0 ∧ (kernelView w.bSize data).Broken s) := by
  rw [spfsFreeInit, EStateM.run_bind_of_ok (run_setFreeList _ _)] at h
  exact spfsFreeInitLit_loads (w := w.setFreeList ⟨0, []⟩) henv hdev h

/-- `spfs_free_init` returns when its chain has an end. -/
theorem spfsFreeInit_returns (henv : env.Grants) {s n : ℕ} (hfuel : env.fuel = n)
    (hdev : w.Shows data) (h : s = 0 ∨ s ≠ 0 ∧ (kernelView w.bSize data).EndsWithin n s) :
    ∃ res w', (spfsFreeInit env s).run w = .ok res w' := by
  rw [spfsFreeInit, EStateM.run_bind_of_ok (run_setFreeList _ _), hfuel]
  rcases h with rfl | ⟨hs, h⟩
  · rw [spfsFreeInitLit_zero]
    exact ⟨_, _, rfl⟩
  · exact spfsFreeInitLit_returns (w := w.setFreeList ⟨0, []⟩) henv h hs hdev rfl

end Loader

end Spfs
