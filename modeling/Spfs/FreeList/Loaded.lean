-- SUMMARY: What a free list that was loaded holds, whatever the environment did meanwhile.
import Spfs.FreeList.Format

/-!
# Loaded free lists

Reads and allocations may fail at any time. A loader that returns 0 all the same has met no
failure, and what it has loaded is the chain of the device: the entries are a function
of the bytes, and of nothing else.
-/

namespace Spfs

open EStateM (run_bind_of_ok run_bind_eq_ok)

section Loaded

variable {env : Env} {w w' : World} {data : Block} {s n pos pos' : ℕ}

/-- A node that was made is the entry at the position. -/
theorem spfsInitFreeListEntry_some {node : FreeNode} (hpos : pos ≤ w.bSize)
    (h : (spfsInitFreeListEntry env s pos).run w = .ok (some node, pos') w') :
    pos + 8 ≤ w.bSize ∧ node = freeEntryAt (w.disk s) pos ∧ pos' = pos + 8 ∧ w' = w.addEvent .kzalloc := by
  rw [spfsInitFreeListEntry, run_bind_of_ok (EStateM.run_get w), run_bind_of_ok (run_emit _ _)] at h
  split at h
  · cases h
  rw [run_parseBuf] at h
  rcases Nat.lt_or_ge w.bSize (pos + 8) with hshort | hin
  · simp only [World.addEvent_bSize, World.addEvent_disk, run_spfsReadEntry_short hshort hpos] at h
    cases h
  · simp only [World.addEvent_bSize, World.addEvent_disk, run_spfsReadEntry hin] at h
    cases h
    exact ⟨hin, rfl, rfl, rfl⟩

/-- A table that was read to its end lies in its block. -/
theorem spfsFreeInitEntries_true (hpos : pos ≤ w.bSize)
    (h : (spfsFreeInitEntries env s n pos).run w = .ok true w') :
    pos + 8 * n ≤ w.bSize ∧
      OnlyLogs (w.setFreeList ((entriesAt (w.disk s) pos n).foldl FreeList.push w.sbi.freeList)) w' := by
  induction n generalizing w pos with
  | zero =>
    cases h
    exact ⟨hpos, [], rfl⟩
  | succ n ih =>
    obtain ⟨⟨node, pos'⟩, w₁, hentry, hrest⟩ := run_bind_eq_ok.mp h
    cases node with
    | none => cases hrest
    | some node =>
      obtain ⟨hin, rfl, rfl, rfl⟩ := spfsInitFreeListEntry_some hpos hentry
      obtain ⟨hall, es, hlogs⟩ := @ih ((w.addEvent .kzalloc).setFreeList
        (w.sbi.freeList.push (freeEntryAt (w.disk s) pos))) (pos + 8) hin hrest
      refine ⟨?_, es ++ [.kzalloc], ?_⟩
      · have : pos + 8 + 8 * n ≤ w.bSize := hall
        omega
      · rw [hlogs]
        simp [World.setFreeList, entriesAt, World.addEvent]

/-- The entries that the device lists from a block on. -/
def ListsFree (bs : ℕ) (data : Block) (s : ℕ) (es : List FreeNode) : Prop :=
  s = 0 ∧ es = [] ∨ s ≠ 0 ∧ (kernelView bs data).WellFormed s es

theorem ListsFree.unique {bs : ℕ} {es es' : List FreeNode} (h : ListsFree bs data s es) (h' : ListsFree bs data s es') :
    es = es' := by
  rcases h with ⟨rfl, rfl⟩ | ⟨hs, h⟩
  · rcases h' with ⟨-, rfl⟩ | ⟨hs, -⟩
    · rfl
    · exact absurd rfl hs
  · rcases h' with ⟨rfl, -⟩ | ⟨-, h'⟩
    · exact absurd rfl hs
    · exact h.unique h'

/-- A block that the loader got through is good, and its entries are on the list. -/
theorem spfsFreeInitLit_step {fuel : ℕ} (hdev : w.Shows data) (hs : s ≠ 0)
    (h : (spfsFreeInitLit env (fuel + 1) s).run w = .ok 0 w') :
    (kernelView w.bSize data).Good s ∧ ∃ w₁,
      OnlyLogs (w.setFreeList (((kernelView w.bSize data).table s).foldl FreeList.push w.sbi.freeList)) w₁ ∧
      (spfsFreeInitLit env fuel ((kernelView w.bSize data).header s).next).run w₁ = .ok 0 w' := by
  have hle := w.le_bSize
  rw [spfsFreeInitLit] at h
  case x_2 => exact hs
  obtain ⟨ok, w₁, hbread, h₁⟩ := run_bind_eq_ok.mp h
  rw [run_sbBread] at hbread
  cases hbread
  split at h₁
  · cases h₁
  obtain ⟨⟨header, pos⟩, w₂, hparse, h₂⟩ := run_bind_eq_ok.mp h₁
  rw [run_parseBuf] at hparse
  simp only [World.addEvent_bSize, World.addEvent_disk, run_spfsReadHeader w.le_bSize, hdev.headerAt] at hparse
  cases hparse
  by_cases hmagic : ((kernelView w.bSize data).header s).magic = spookyFsFlMagic
  swap
  · rw [if_neg hmagic] at h₂
    cases h₂
  rw [if_pos hmagic] at h₂
  obtain ⟨ok, w₃, hentries, h₃⟩ := run_bind_eq_ok.mp h₂
  cases ok with
  | false => cases h₃
  | true =>
    obtain ⟨hfits, es, rfl⟩ := spfsFreeInitEntries_true (by show 12 ≤ w.bSize; omega) hentries
    have hfits : 12 + 8 * ((kernelView w.bSize data).header s).entries ≤ w.bSize := hfits
    refine ⟨⟨hmagic, ?_⟩, _, ?_, h₃⟩
    · show s * w.bSize + 12 + 8 * _ ≤ s * w.bSize + w.bSize
      omega
    · rw [World.addEvent_disk, hdev.entriesAt s _ 12 hfits]
      exact ⟨.brelse s :: es ++ [.bread s (env.ioOk w.time s)], by simp [World.addEvent, World.setFreeList]; rfl⟩

/-- The loop has pushed the entries of a chain that ends. -/
theorem spfsFreeInitLit_zero_ok {fuel : ℕ} (hdev : w.Shows data)
    (h : (spfsFreeInitLit env fuel s).run w = .ok 0 w') :
    ∃ es, ListsFree w.bSize data s es ∧ OnlyLogs (w.setFreeList (es.foldl FreeList.push w.sbi.freeList)) w' := by
  induction fuel generalizing s w with
  | zero =>
    cases s with
    | zero =>
      cases h
      exact ⟨[], .inl ⟨rfl, rfl⟩, [], rfl⟩
    | succ s => cases h
  | succ fuel ih =>
    by_cases hs : s = 0
    · subst hs
      cases h
      exact ⟨[], .inl ⟨rfl, rfl⟩, [], rfl⟩
    obtain ⟨hgood, w₁, hlogs, hrest⟩ := spfsFreeInitLit_step hdev hs h
    obtain ⟨hdev₁, hb⟩ := hdev.of_freeList hlogs
    obtain ⟨es, hes, hlogs'⟩ := ih hdev₁ hrest
    rw [hb] at hes
    obtain ⟨ev, rfl⟩ := hlogs
    refine ⟨(kernelView w.bSize data).table s ++ es, .inr ⟨hs, ?_⟩, ?_⟩
    · rcases hes with ⟨hnext, rfl⟩ | ⟨hnext, hwell⟩
      · rw [List.append_nil]
        exact .last hgood hnext
      · exact .next hgood hnext hwell
    · obtain ⟨ev', rfl⟩ := hlogs'
      rw [List.foldl_append]
      exact ⟨ev' ++ ev, by simp [World.setFreeList]⟩

/-- Whatever the environment does, a loaded list is that of the device, entry by entry. -/
theorem spfsFreeInit_zero (h : (spfsFreeInit env s).run w = .ok 0 w') (hdev : w.Shows data) :
    ∃ es, ListsFree w.bSize data s es ∧ OnlyLogs (w.setFreeList (es.foldl FreeList.push ⟨0, []⟩)) w' := by
  rw [spfsFreeInit, run_bind_of_ok (run_setFreeList _ _)] at h
  have hdev' : (w.setFreeList ⟨0, []⟩).Shows data := hdev
  obtain ⟨es, hes, hlogs⟩ := spfsFreeInitLit_zero_ok hdev' h
  exact ⟨es, hes, hlogs⟩

end Loaded

end Spfs
