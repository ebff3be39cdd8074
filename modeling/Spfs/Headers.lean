-- SUMMARY: Headers of directory blocks and of extents: what is made is parsed again, and what is parsed is made again.
import Spfs.Dir
import Spfs.File.Extent

/-!
# Headers

Both headers are a magic number, the sector of the next one and one or two numbers, with 4
bytes for each. The writers ask for the 4 bytes of each number, the readers for 8 where a
sector stands. No header ends with a sector, so the readers and the writers of a header need
the same room.
-/

namespace Spfs

section Codec

variable {α : Type}

/-- A header of `n` bytes at the front of a buffer: making it changes nothing behind it and
parses to what it was made from, and making what was parsed changes nothing at all. -/
structure RoundTripsInPlace (parse : ℕ → Block → EStateM Fault ℕ (Except ℤ α))
    (make : α → ℕ → EStateM Fault Buf ℤ) (fits : α → Prop) (n : ℕ) : Prop where
  made : ∀ bSize ≥ n, ∀ (b : Block) (header : α), fits header → ∃ b',
    (make header bSize).run ⟨b, 0⟩ = .ok 0 ⟨b', n⟩ ∧ (∀ i ≥ n, b' i = b i) ∧
      (parse bSize b').run 0 = .ok (.ok header) n
  remade : ∀ (bSize : ℕ) (b : Block) (header : α) (pos : ℕ),
    (parse bSize b).run 0 = .ok (.ok header) pos → (make header bSize).run ⟨b, 0⟩ = .ok 0 ⟨b, pos⟩

variable {parse : ℕ → Block → EStateM Fault ℕ (Except ℤ α)} {make : α → ℕ → EStateM Fault Buf ℤ}
  {fits : α → Prop}

/-- A header that is stored as `k` words, and parsed from these words alone. -/
theorem RoundTripsInPlace.of_words {k : ℕ} (words : α → List ℕ) (hlen : ∀ header, (words header).length = k)
    (hfits : ∀ header, fits header → ∀ w ∈ words header, w < 2 ^ 32)
    (hmake : ∀ bSize ≥ 4 * k, ∀ (b : Block) (header : α),
      (make header bSize).run ⟨b, 0⟩ = .ok 0 ⟨b.writeWords 0 (words header), 4 * k⟩)
    (hparse : ∀ (bSize : ℕ) (b : Block) (header : α) (pos : ℕ), (parse bSize b).run 0 = .ok (.ok header) pos ↔
      4 * k ≤ bSize ∧ pos = 4 * k ∧ b.words 0 k = words header) :
    RoundTripsInPlace parse make fits (4 * k) where
  made bSize hsize b header hheader := by
    refine ⟨b.writeWords 0 (words header), hmake bSize hsize b header, fun i hi => ?_, ?_⟩
    · apply Block.writeWords_frame
      rw [hlen, Nat.zero_add]
      exact .inr hi
    · have hback := b.words_writeWords_of_lt 0 (hfits header hheader)
      rw [hlen] at hback
      exact (hparse _ _ _ _).mpr ⟨hsize, rfl, hback⟩
  remade bSize b header pos hrun := by
    obtain ⟨hsize, rfl, hwords⟩ := (hparse bSize b header pos).mp hrun
    rw [hmake bSize hsize, ← hwords, Block.writeWords_words]

end Codec

theorem roundTripsInPlace_dirBlock :
    RoundTripsInPlace spfsParseDirBlock spfsMakeDirBlock DirBlock.Fits 12 := by
  refine .of_words (k := 3) DirBlock.words (fun _ => rfl) (fun _ h => h.words_lt) ?_ ?_
  · intro bSize hsize b header
    exact run_spfsMakeDirBlock_of_le hsize
  · intro bSize b header pos
    rw [spfsParseDirBlock_eq_ok, dirAt_iff_words]

theorem roundTripsInPlace_fileExtent :
    RoundTripsInPlace spfsParseFileExtent spfsMakeFileExtent FileExtent.Fits 16 := by
  refine .of_words (k := 4) FileExtent.words (fun _ => rfl) (fun _ h => h.words_lt) ?_ ?_
  · intro bSize hsize b header
    exact run_spfsMakeFileExtent_of_le header hsize
  · intro bSize b header pos
    rw [spfsParseFileExtent_eq_ok, extentAt_iff_words]

/-- Both headers round-trip in place, in every buffer that has room for them. -/
theorem headers_roundTrip :
    RoundTripsInPlace spfsParseDirBlock spfsMakeDirBlock DirBlock.Fits 12 ∧
      RoundTripsInPlace spfsParseFileExtent spfsMakeFileExtent FileExtent.Fits 16 :=
  ⟨roundTripsInPlace_dirBlock, roundTripsInPlace_fileExtent⟩

end Spfs
