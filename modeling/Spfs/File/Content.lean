-- SUMMARY: What reads of a file deliver on any device: the bytes of its extents from a position on, at once or in pieces.
import Spfs.File.Chain
import Spfs.File.ReadPath
import Spfs.Inode
import Spfs.Lib.Window

/-!
# The content of a file

The content of a file is what its extents hold one after the other, as far as the chain can
be followed; it may go in a circle. A read that returns bytes shows a window of it, and it
returns any exactly when it comes through (`spfsRead_delivers_iff`). Reads that follow one
another show what one read of all would.
-/

namespace Spfs

open EStateM (Within)
open Window (Shows Sees)

/-! ## Paths -/

/-- A path over extents that are linked, each with its header, and the sector it leads to. -/
inductive ExtentPath (disk : ℕ → Block) : ℕ → List (ℕ × FileExtent) → ℕ → Prop
  | nil (s : ℕ) : ExtentPath disk s [] s
  | cons {s last : ℕ} {e : FileExtent} {rest : List (ℕ × FileExtent)} (hs : s ≠ 0)
      (he : ExtentAt (disk s) e) (hrest : ExtentPath disk e.next rest last) :
      ExtentPath disk s ((s, e) :: rest) last

/-- The data of an extent, as much as its header counts. -/
def extentBytes (w : World) (c : ℕ × FileExtent) : List UInt8 := (extentData w c.1).read 0 c.2.length

def pathBytes (w : World) (path : List (ℕ × FileExtent)) : List UInt8 := path.flatMap (extentBytes w)

/-- What a path from the first sector of a file sees of it. It has seen all when it leads to
no other extent. -/
def FileBytes (w : World) (start : ℕ) (l : List UInt8) (all : Bool) : Prop :=
  ∃ path last, ExtentPath w.disk start path last ∧ l = pathBytes w path ∧ (all = true → last = 0)

section Paths

variable {disk : ℕ → Block} {s last last' : ℕ} {path path' : List (ℕ × FileExtent)} {w : World}

theorem ExtentPath.from_zero (h : ExtentPath disk 0 path last) : path = [] := by
  cases h with
  | nil => rfl
  | cons hs => exact absurd rfl hs

theorem ExtentPath.comparable (h : ExtentPath disk s path last) (h' : ExtentPath disk s path' last') :
    path <+: path' ∨ path' <+: path := by
  induction h generalizing path' with
  | nil => exact .inl List.nil_prefix
  | cons hs he _ ih =>
    cases h' with
    | nil => exact .inr List.nil_prefix
    | cons _ he' hrest' =>
      obtain rfl := he.unique he'
      exact (ih hrest').imp (List.prefix_cons_inj _).mpr (List.prefix_cons_inj _).mpr

theorem ExtentPath.all (h : ExtentPath disk s path 0) (h' : ExtentPath disk s path' last') : path' <+: path := by
  generalize hlast : (0 : ℕ) = last at h
  induction h generalizing path' with
  | nil =>
    rw [← hlast] at h'
    rw [h'.from_zero]
  | cons hs he _ ih =>
    cases h' with
    | nil => exact List.nil_prefix
    | cons _ he' hrest' =>
      obtain rfl := he.unique he'
      exact (List.prefix_cons_inj _).mpr (ih hrest' hlast)

theorem pathBytes_front (w : World) (h : path <+: path') : pathBytes w path <+: pathBytes w path' := by
  obtain ⟨rest, rfl⟩ := h
  rw [pathBytes, pathBytes, List.flatMap_append]
  exact List.prefix_append _ _

/-- All paths see the same file. -/
theorem sees_fileBytes (w : World) (start : ℕ) : Sees (FileBytes w start) where
  comparable := by
    rintro l l' d d' ⟨path, last, hpath, rfl, -⟩ ⟨path', last', hpath', rfl, -⟩
    exact (hpath.comparable hpath').imp (pathBytes_front w) (pathBytes_front w)
  all := by
    rintro l l' d' ⟨path, last, hpath, rfl, hall⟩ ⟨path', last', hpath', rfl, -⟩
    rw [hall rfl] at hpath
    exact pathBytes_front w (hpath.all hpath')

/-- The file behind its first extent. -/
theorem FileBytes.cons {e : FileExtent} {l : List UInt8} {d : Bool} (hs : s ≠ 0)
    (he : ExtentAt (w.disk s) e) (h : FileBytes w e.next l d) : FileBytes w s (extentBytes w (s, e) ++ l) d := by
  obtain ⟨path, last, hpath, rfl, hall⟩ := h
  exact ⟨(s, e) :: path, last, .cons hs he hpath, rfl, hall⟩

theorem FileBytes.nothing (w : World) (start : ℕ) : FileBytes w start [] false :=
  ⟨[], start, .nil start, rfl, fun h => absurd h (by decide)⟩

/-- Only the blocks say what a file is. -/
theorem FileBytes.congr {w' : World} {start : ℕ} (hdisk : w'.disk = w.disk) (hsize : w'.bSize = w.bSize) :
    FileBytes w' start = FileBytes w start := by
  have hbytes : extentBytes w' = extentBytes w := by
    funext c
    unfold extentBytes extentData
    rw [hdisk, hsize]
  unfold FileBytes pathBytes
  rw [hdisk, hbytes]

theorem length_extentBytes (w : World) (c : ℕ × FileExtent) : (extentBytes w c).length = c.2.length :=
  Block.length_read _ _ _

/-- What is left of the data of an extent behind a position. -/
theorem drop_extentBytes (w : World) (c : ℕ × FileExtent) (pos : ℕ) :
    (extentBytes w c).drop pos = (extentData w c.1).read pos (c.2.length - pos) := by
  rw [extentBytes]
  by_cases hpos : pos ≤ c.2.length
  · obtain ⟨n, hn⟩ := Nat.exists_eq_add_of_le hpos
    have hlen : ((extentData w c.1).read 0 pos).length = pos := Block.length_read _ _ _
    rw [hn, Block.read_add, List.drop_append_of_le_length hlen.ge, List.drop_of_length_le hlen.le,
      List.nil_append, Nat.zero_add, Nat.add_sub_cancel_left]
  · rw [Nat.sub_eq_zero_of_le (Nat.le_of_not_le hpos), Block.read_zero]
    refine List.drop_of_length_le ?_
    rw [Block.length_read]
    exact Nat.le_of_not_le hpos

end Paths

/-! ## The bytes of an extent -/

section Do

variable {env : Env} {w w' : World} {start bhPos length : ℕ} {rest rest' : ReadRest} {res : ℤ}

/-- The share of a block that is data to its end, and what is read behind it. -/
theorem read_share_append (h : bhPos ≤ w.bSize) (hle : w.bSize - bhPos ≤ length)
    (hin : length - rest.pos ≤ rest.inLen) :
    let avail := w.bSize - bhPos
    let bytes := (w.disk start).read (bhPos + rest.pos) (rest.share avail)
    bytes ++ (Block.joined w.bSize w.disk (start + 1)).read (0 + (rest.after avail bytes).pos)
        (length - avail - (rest.after avail bytes).pos) =
      (Block.joined w.bSize w.disk start).read (bhPos + rest.pos) (length - rest.pos) := by
  intro avail bytes
  have hshare : min (length - rest.pos) (w.bSize - (bhPos + rest.pos)) = rest.share avail := by
    rw [rest.share_through hle hin, Nat.sub_add_eq]
    exact Nat.min_eq_right (Nat.sub_le_sub_right hle _)
  have hat : 0 + (rest.after avail bytes).pos = bhPos + rest.pos - w.bSize := by
    show 0 + (rest.pos - (w.bSize - bhPos)) = _
    omega
  have hbytes : bytes = (w.disk start).read (bhPos + rest.pos)
      (min (length - rest.pos) (w.bSize - (bhPos + rest.pos))) := by
    rw [hshare]
  rw [hat, rest.after_through bytes hle hin, ← hshare, hbytes]
  exact (Block.joined_read w.disk (Nat.lt_of_lt_of_le (by decide) w.le_bSize) _ _).symm

/-- A loop that ends well has copied the data behind the position, and counts what it copied. -/
theorem spfsReadFileExtentDo_copies {fuel : ℕ} (h : bhPos ≤ w.bSize)
    (hrun : (spfsReadFileExtentDo env fuel start bhPos length rest).run w = .ok (res, rest') w')
    (hres : 0 ≤ res) :
    res = rest'.read.length ∧ rest'.read = rest.read ++
      (Block.joined w.bSize w.disk start).read (bhPos + rest.pos) (length - rest.pos) := by
  induction fuel generalizing start bhPos length rest w with
  | zero => cases hrun
  | succ fuel ih =>
    obtain ⟨-, hask, -⟩ | ⟨hneg, -⟩ := spfsReadFileExtentDo_ends h hrun
    case inr => exact absurd hres (by omega)
    have hin : length - rest.pos ≤ rest.inLen := Nat.sub_le_iff_le_add'.mpr hask
    by_cases hlast : length + bhPos ≤ w.bSize
    · rw [run_spfsReadFileExtentDo_last fuel hlast hin] at hrun
      cases hrun
      exact ⟨by simp, rfl⟩
    have hle : w.bSize - bhPos ≤ length := by omega
    rw [run_spfsReadFileExtentDo_step fuel h, Nat.min_eq_left hle, rest.left_through hle hin,
      if_pos (by omega)] at hrun
    set bytes := (w.disk start).read (bhPos + rest.pos) (rest.share (w.bSize - bhPos)) with hbytes
    set w₁ := w.addEvent (.brelse start)
    cases hio : env.ioOk w₁.time (start + 1) with
    | false =>
      rw [EStateM.run_check_of_false (run_sbBread_failed hio)] at hrun
      cases hrun
      exact absurd hres (by decide)
    | true =>
      rw [EStateM.run_check_of_true (run_sbBread_ok hio)] at hrun
      obtain ⟨hcount, hread⟩ := ih (Nat.zero_le _) hrun
      refine ⟨hcount, ?_⟩
      rw [← read_share_append h hle hin, ← List.append_assoc]
      exact hread

end Do

section Extent

variable {env : Env} {w w' : World} {s next : ℕ} {rest rest' : ReadRest} {res : ℤ}

/-- A read that has passed an extent has copied what the extent has behind the position. -/
theorem spfsReadFileExtent_copies {e : FileExtent} (hpassed : PassedExtent env w w' s e rest rest')
    (hrun : (spfsReadFileExtent env s rest).run w = .ok (res, next, rest') w') (hres : 0 ≤ res) :
    res = rest'.read.length ∧ rest'.read = rest.read ++ (extentBytes w (s, e)).drop rest.pos := by
  have hio : env.ioOk w.time s = true := (canRead_succ.mp hpassed.canRead).1
  set w₁ := w.addEvent (.bread s true)
  have hparse : (parseBuf s 0 spfsParseFileExtent).run w₁ = .ok (.ok e, 16) w₁ := by
    have he : ExtentAt (w₁.disk s) e := hpassed.header
    rw [run_parseBuf, he.run_parse w₁.le_bSize]
  rw [spfsReadFileExtent, EStateM.run_check_of_true (run_sbBread_ok hio),
    EStateM.run_bind_of_ok hparse] at hrun
  obtain ⟨⟨res₂, rest₂⟩, w₂, hdo, hreturn⟩ := EStateM.run_bind_eq_ok.mp hrun
  cases hreturn
  have hhead : 16 ≤ w₁.bSize := le_trans (by decide) w₁.le_bSize
  obtain ⟨hcount, hread⟩ := spfsReadFileExtentDo_copies hhead hdo hres
  refine ⟨hcount, ?_⟩
  rw [hread, drop_extentBytes, read_extentData]
  rfl

end Extent

/-! ## The bytes of a file -/

section Lit

variable {env : Env} {w w' : World}

/-- A read over the extents that returns bytes shows a window of the file. -/
theorem spfsReadLit_shows {fuel start inLen pos : ℕ} {read read' : List UInt8} (hlen : 0 < inLen)
    (hrun : (spfsReadLit env fuel start inLen pos read).run w = .ok (.ok read') w') :
    ∃ bytes, read' = read ++ bytes ∧ Shows (FileBytes w start) pos inLen bytes := by
  induction fuel generalizing start inLen pos read w with
  | zero =>
    cases start with
    | zero =>
      cases hrun
      exact ⟨[], (List.append_nil _).symm, .nil ⟨[], 0, .nil 0, rfl, fun _ => rfl⟩ pos inLen⟩
    | succ start => cases hrun
  | succ fuel ih =>
    by_cases hs : start = 0
    · subst hs
      cases hrun
      exact ⟨[], (List.append_nil _).symm, .nil ⟨[], 0, .nil 0, rfl, fun _ => rfl⟩ pos inLen⟩
    rw [spfsReadLit] at hrun
    case x_5 => exact hs
    obtain ⟨⟨res, next, rest⟩, w₁, hextent, hrun₁⟩ := EStateM.run_bind_eq_ok.mp hrun
    have hlogs := (within_spfsReadFileExtent env start _).of_ok hextent
    dsimp only at hrun₁
    obtain ⟨hres, e, rfl, hpassed⟩ | ⟨hneg, -⟩ := spfsReadFileExtent_ends hextent
    case inr =>
      rw [if_pos hneg] at hrun₁
      cases hrun₁
    rw [if_neg (by omega)] at hrun₁
    obtain ⟨-, hread⟩ := spfsReadFileExtent_copies hpassed hextent hres
    have hbytes : rest.read = (extentBytes w (start, e)).drop pos := hread
    have hinLen : rest.inLen = inLen - (e.length - pos) := hpassed.inLen
    have hdata : (extentBytes w (start, e)).length = e.length := length_extentBytes w (start, e)
    by_cases hmore : rest.inLen > 0
    · rw [if_pos hmore] at hrun₁
      obtain ⟨bytes, rfl, hshows⟩ := ih hmore hrun₁
      rw [FileBytes.congr hlogs.disk hlogs.bSize, hinLen, hpassed.pos] at hshows
      refine ⟨rest.read ++ bytes, List.append_assoc _ _ _, ?_⟩
      rw [hbytes]
      refine Shows.segment (fun l d => FileBytes.cons hs hpassed.header) ?_ ?_
      · rw [hdata]
        exact hpassed.length_le
      · rw [hdata]
        exact hshows
    · rw [if_neg hmore] at hrun₁
      cases hrun₁
      refine ⟨rest.read, rfl, ?_⟩
      rw [hbytes]
      have hfirst : FileBytes w start (extentBytes w (start, e)) false := by
        have hcons := (FileBytes.nothing w e.next).cons hs hpassed.header
        rwa [List.append_nil] at hcons
      refine Shows.of_segment hfirst ?_
      rw [hdata]
      have hle : e.length ≤ pos + inLen := hpassed.length_le
      omega

/-- An error of a read is negative. -/
theorem spfsReadLit_error {fuel start inLen pos : ℕ} {read : List UInt8} {res : ℤ}
    (hrun : (spfsReadLit env fuel start inLen pos read).run w = .ok (.error res) w') : res < 0 := by
  induction fuel generalizing start inLen pos read w with
  | zero => cases start <;> cases hrun
  | succ fuel ih =>
    cases start with
    | zero => cases hrun
    | succ start =>
      obtain ⟨⟨res', next, rest⟩, w₁, -, hrun₁⟩ := EStateM.run_bind_eq_ok.mp hrun
      dsimp only at hrun₁
      by_cases hneg : res' < 0
      · rw [if_pos hneg] at hrun₁
        cases hrun₁
        exact hneg
      rw [if_neg hneg] at hrun₁
      by_cases hmore : rest.inLen > 0
      · rw [if_pos hmore] at hrun₁
        exact ih hrun₁
      · rw [if_neg hmore] at hrun₁
        cases hrun₁

end Lit

/-! ## Reads that return -/

section Returns

variable {env : Env} {w w' : World} {start bhPos length : ℕ} {rest : ReadRest}

/-- The loop returns when it is asked for all that is left and the blocks can be read. -/
theorem spfsReadFileExtentDo_returns {fuel : ℕ} (h : bhPos ≤ w.bSize)
    (hask : length ≤ rest.pos + rest.inLen)
    (hcan : CanRead env (w.time + 1) (start + 1) ((length + bhPos - 1) / w.bSize))
    (hfuel : (length + bhPos - 1) / w.bSize < fuel) :
    ∃ r w', (spfsReadFileExtentDo env fuel start bhPos length rest).run w = .ok r w' := by
  induction fuel generalizing start bhPos length rest w with
  | zero => exact absurd hfuel (Nat.not_lt_zero _)
  | succ fuel ih =>
    have hbig := w.le_bSize
    have hin : length - rest.pos ≤ rest.inLen := Nat.sub_le_iff_le_add'.mpr hask
    by_cases hlast : length + bhPos ≤ w.bSize
    · exact ⟨_, _, run_spfsReadFileExtentDo_last fuel hlast hin⟩
    have hle : w.bSize - bhPos ≤ length := by omega
    have hk : (length + bhPos - 1) / w.bSize = (length - (w.bSize - bhPos) - 1) / w.bSize + 1 := by
      have hsum : length + bhPos - 1 = length - (w.bSize - bhPos) - 1 + w.bSize := by omega
      rw [hsum, Nat.add_div_right _ (by omega)]
    rw [hk] at hcan hfuel
    obtain ⟨hio, hcan⟩ := canRead_succ.mp hcan
    set w₁ := w.addEvent (.brelse start)
    rw [run_spfsReadFileExtentDo_step fuel h, Nat.min_eq_left hle, rest.left_through hle hin,
      if_pos (by omega), EStateM.run_check_of_true (run_sbBread_ok (w := w₁) hio)]
    refine ih (Nat.zero_le _) ?_ ?_ ?_
    · exact Nat.sub_le_iff_le_add'.mp (rest.inLen_through _ hle hin)
    · exact hcan
    · exact Nat.lt_of_succ_lt_succ hfuel

theorem spfsReadFileExtent_returns {s : ℕ} {e : FileExtent} (he : ExtentAt (w.disk s) e)
    (hask : e.length ≤ rest.pos + rest.inLen) (hcan : CanRead env w.time s (e.span w.bSize))
    (hfuel : e.span w.bSize ≤ env.fuel) :
    ∃ r w', (spfsReadFileExtent env s rest).run w = .ok r w' := by
  obtain ⟨hio, hcan⟩ := canRead_succ.mp hcan
  set w₁ := w.addEvent (.bread s true)
  have hparse : (parseBuf s 0 spfsParseFileExtent).run w₁ = .ok (.ok e, 16) w₁ := by
    have he₁ : ExtentAt (w₁.disk s) e := he
    rw [run_parseBuf, he₁.run_parse w₁.le_bSize]
  have hhead : 16 ≤ w₁.bSize := le_trans (by decide) w₁.le_bSize
  obtain ⟨r, w₂, hdo⟩ := spfsReadFileExtentDo_returns hhead hask hcan hfuel
  rw [spfsReadFileExtent, EStateM.run_check_of_true (run_sbBread_ok hio),
    EStateM.run_bind_of_ok hparse]
  dsimp only
  rw [EStateM.run_bind_of_ok hdo]
  exact ⟨_, _, rfl⟩

/-- Only which blocks can be read, and when, says whether a read comes through. -/
theorem ReadsThrough.of_io {env' : Env} {bSize t inLen pos : ℕ} {disk : ℕ → Block}
    (hio : env'.ioOk = env.ioOk) (h : ReadsThrough env bSize disk t start inLen pos) :
    ReadsThrough env' bSize disk t start inLen pos := by
  induction h with
  | done => exact .done
  | extent hs he hlength hcan _ ih =>
    refine .extent hs he hlength (fun j hj => ?_) ih
    rw [hio]
    exact hcan j hj

/-- A read that comes through returns, whatever larger bound there is on its loops. -/
theorem ReadsThrough.returns {bSize t inLen pos : ℕ} {disk : ℕ → Block}
    (h : ReadsThrough env bSize disk t start inLen pos) :
    ∃ bound, ∀ w n fuel read, w.bSize = bSize → w.disk = disk → w.time = t → bound ≤ n → bound ≤ fuel →
      ∃ read' w', (spfsReadLit { env with fuel := n } fuel start inLen pos read).run w = .ok (.ok read') w' := by
  induction h with
  | done =>
    refine ⟨0, fun w n fuel read _ _ _ _ _ => ⟨read, w, ?_⟩⟩
    cases fuel <;> rfl
  | @extent t s inLen pos e hs he hlength hcan _ ih =>
    -- the extents behind it count only when there is more to read
    obtain ⟨bound, hbound⟩ : ∃ bound, e.length - pos < inLen → ∀ w n fuel read, w.bSize = bSize →
        w.disk = disk → w.time = t + 2 * e.span bSize → bound ≤ n → bound ≤ fuel →
          ∃ read' w', (spfsReadLit { env with fuel := n } fuel e.next (inLen - (e.length - pos))
            (pos - e.length) read).run w = .ok (.ok read') w' := by
      by_cases hmore : e.length - pos < inLen
      · obtain ⟨bound, hbound⟩ := ih hmore
        exact ⟨bound, fun _ => hbound⟩
      · exact ⟨0, fun h => absurd h hmore⟩
    refine ⟨max (e.span bSize) (bound + 1), ?_⟩
    rintro w n fuel read rfl rfl rfl hn hfuel
    obtain ⟨hspan, hn⟩ := Nat.max_le.mp hn
    obtain ⟨-, hfuel⟩ := Nat.max_le.mp hfuel
    obtain ⟨fuel, rfl⟩ := Nat.exists_eq_add_of_le' (le_trans (Nat.le_add_left 1 bound) hfuel)
    set env' : Env := { env with fuel := n }
    have hcan' : CanRead env' w.time s (e.span w.bSize) := hcan
    have hreturns : ∃ r w₁, (spfsReadFileExtent env' s ⟨pos, inLen, []⟩).run w = .ok r w₁ :=
      spfsReadFileExtent_returns he hlength hcan' hspan
    obtain ⟨⟨res, next, rest⟩, w₁, hextent⟩ := hreturns
    obtain ⟨hres, e', rfl, hpassed⟩ | ⟨-, hnot⟩ := spfsReadFileExtent_ends hextent
    case inr => exact absurd ⟨hlength, hcan'⟩ (hnot e he)
    obtain rfl := he.unique hpassed.header
    have hlogs := (within_spfsReadFileExtent env' s _).of_ok hextent
    have hinLen : rest.inLen = inLen - (e.length - pos) := hpassed.inLen
    rw [spfsReadLit, EStateM.run_bind_of_ok hextent]
    case x_5 => exact hs
    dsimp only
    rw [if_neg (by omega)]
    by_cases hmore : rest.inLen > 0
    · rw [if_pos hmore, hinLen, hpassed.pos]
      exact hbound (by omega) w₁ n fuel _ hlogs.bSize hlogs.disk hpassed.time
        (le_trans (Nat.le_succ bound) hn) (Nat.le_of_succ_le_succ hfuel)
    · rw [if_neg hmore]
      exact ⟨_, _, rfl⟩

end Returns

/-! ## Calls -/

section Calls

variable {env : Env} {w w' : World} {p inLen ppos : ℕ} {i : SpfsInode}

/-- The call returns how many bytes it copied, moves the position behind them, and changes
nothing but the log. -/
structure Delivered (p : ℕ) (w w' : World) (res : ℤ) (ppos ppos' : ℕ) (bytes : List UInt8) : Prop where
  res : res = bytes.length
  ppos : ppos' = ppos + bytes.length
  logs : OnlyLogs w w'

/-- A call that does not fail shows a window of the file. -/
theorem spfsRead_shows {res : ℤ} {ppos' : ℕ} {bytes : List UInt8} (hp : w.inodes p = some i)
    (hrun : (spfsRead env p inLen ppos).run w = .ok (res, ppos', bytes) w') (hres : 0 ≤ res) :
    Delivered p w w' res ppos ppos' bytes ∧ Shows (FileBytes w i.start) ppos inLen bytes := by
  rw [spfsRead] at hrun
  by_cases hlen : inLen = 0
  · rw [if_pos hlen] at hrun
    cases hrun
    exact ⟨⟨rfl, rfl, refl_of OnlyLogs w⟩, [], false, .nothing w _, by simp, fun h => absurd h (by omega)⟩
  rw [if_neg hlen, EStateM.run_bind_of_ok (run_getInode_of hp)] at hrun
  cases hmode : sIsReg i.iMode with
  | false =>
    rw [if_pos (by rw [hmode]; rfl)] at hrun
    cases hrun
    exact absurd hres (by decide)
  | true =>
    rw [if_neg (by rw [hmode]; decide)] at hrun
    obtain ⟨sbi, w₁, hsuper, hrun₁⟩ := EStateM.run_bind_eq_ok.mp hrun
    obtain rfl : w₁ = w := superOf_same hsuper
    cases hlock : i.lock with
    | true =>
      rw [EStateM.run_bind_of_error (run_mutexLock_held hp hlock)] at hrun₁
      cases hrun₁
    | false =>
      rw [EStateM.run_bind_of_ok (run_mutexLock_of hp hlock)] at hrun₁
      set w₂ := (w₁.setInode p { i with lock := true }).addEvent (.lock p) with hw₂
      obtain ⟨r, w₃, hlit, hrun₂⟩ := EStateM.run_bind_eq_ok.mp hrun₁
      have hlogs : OnlyLogs w₂ w₃ := (within_spfsReadLit env _ _ _ _ _).of_ok hlit
      have hp₃ : w₃.inodes p = some { i with lock := true } := by
        rw [hlogs.inodes]
        exact Function.update_self _ _ _
      cases r with
      | error res =>
        cases hrun₂
        exact absurd hres (Int.not_le.mpr (spfsReadLit_error hlit))
      | ok read =>
        dsimp only at hrun₂
        rw [EStateM.run_bind_of_ok (run_mutexUnlock_of hp₃)] at hrun₂
        cases hrun₂
        obtain ⟨bytes, rfl, hshows⟩ := spfsReadLit_shows (Nat.pos_of_ne_zero hlen) hlit
        refine ⟨⟨rfl, rfl, ?_⟩, hshows⟩
        -- the object is what it was before the lock was taken
        have hopen : { i with lock := false } = i := by rw [← hlock]
        have hback : w₂.setInode p { i with lock := false } = w₁.addEvent (.lock p) := by
          have hp₁ : (w₁.addEvent (.lock p)).inodes p = some i := hp
          rw [hopen]
          show ((w₁.addEvent (.lock p)).setInode p { i with lock := true }).setInode p i = _
          rw [World.setInode_setInode, World.setInode_self hp₁]
        have hend := hlogs.setInode p { i with lock := false }
        rw [hback] at hend
        exact trans_of OnlyLogs (IgnoresLog.addEvent w₁ _) (trans_of OnlyLogs hend (IgnoresLog.addEvent _ _))

/-- With any sufficient bound on its loops, the read returns a window of the file. -/
def ReadDelivers (env : Env) (w : World) (p inLen ppos start : ℕ) : Prop :=
  ∃ bound, ∀ fuel ≥ bound, ∃ bytes w',
    (spfsRead { env with fuel := fuel } p inLen ppos).run w = .ok (bytes.length, ppos + bytes.length, bytes) w' ∧
      OnlyLogs w w' ∧ Shows (FileBytes w start) ppos inLen bytes

/-- A read whose extents let it through, of a file whose lock is free, delivers. -/
theorem readDelivers_of_through (hp : w.inodes p = some i) (hsb : i.iSb = .sb) (hreg : sIsReg i.iMode = true)
    (hlock : i.lock = false)
    (hthrough : ReadsThrough env w.bSize w.disk (w.time + 1) i.start inLen ppos) :
    ReadDelivers env w p inLen ppos i.start := by
  obtain ⟨bound, hbound⟩ := hthrough.returns
  refine ⟨bound, fun fuel hfuel => ?_⟩
  set w₂ := (w.setInode p { i with lock := true }).addEvent (.lock p)
  have hreturns : ∃ res ppos' bytes w', 0 ≤ res ∧
      (spfsRead { env with fuel := fuel } p inLen ppos).run w = .ok (res, ppos', bytes) w' := by
    by_cases hlen : inLen = 0
    · exact ⟨0, ppos, [], w, le_rfl, by rw [spfsRead, if_pos hlen]; rfl⟩
    obtain ⟨read, w₃, hlit⟩ := hbound w₂ fuel fuel [] rfl rfl rfl hfuel hfuel
    have hp₃ : w₃.inodes p = some { i with lock := true } := by
      rw [((within_spfsReadLit _ _ _ _ _ _).of_ok hlit).inodes]
      exact Function.update_self _ _ _
    refine ⟨read.length, ppos + read.length, read,
      (w₃.setInode p { i with lock := false }).addEvent (.unlock p), Int.natCast_nonneg _, ?_⟩
    rw [spfsRead, if_neg hlen, EStateM.run_bind_of_ok (run_getInode_of hp), if_neg (by rw [hreg]; decide),
      EStateM.run_bind_of_ok (run_superOf hsb w), EStateM.run_bind_of_ok (run_mutexLock_of hp hlock),
      EStateM.run_bind_of_ok hlit]
    dsimp only
    rw [EStateM.run_bind_of_ok (run_mutexUnlock_of hp₃)]
    rfl
  obtain ⟨res, ppos', bytes, w', hres, hrun⟩ := hreturns
  obtain ⟨hdelivered, hshows⟩ := spfsRead_shows hp hrun hres
  rw [hdelivered.res, hdelivered.ppos] at hrun
  exact ⟨bytes, w', hrun, hdelivered.logs, hshows⟩

/-- A read on any device delivers what the file has from the position on exactly when there
is nothing to read, or the lock is free, and each extent on its way has a header, no more
data than the read passes over and asks for, and blocks that can be read. -/
theorem spfsRead_delivers_iff (hp : w.inodes p = some i) (hsb : i.iSb = .sb) (hreg : sIsReg i.iMode = true)
    (env : Env) (inLen ppos : ℕ) :
    ReadDelivers env w p inLen ppos i.start ↔
      inLen = 0 ∨ (i.lock = false ∧ ReadsThrough env w.bSize w.disk (w.time + 1) i.start inLen ppos) := by
  constructor
  · rintro ⟨bound, hbound⟩
    obtain ⟨bytes, w', hrun, -, -⟩ := hbound bound le_rfl
    by_cases hlen : inLen = 0
    · exact .inl hlen
    refine .inr ?_
    rw [spfsRead, if_neg hlen, EStateM.run_bind_of_ok (run_getInode_of hp), if_neg (by rw [hreg]; decide),
      EStateM.run_bind_of_ok (run_superOf hsb w)] at hrun
    cases hlock : i.lock with
    | true =>
      rw [EStateM.run_bind_of_error (run_mutexLock_held hp hlock)] at hrun
      cases hrun
    | false =>
      rw [EStateM.run_bind_of_ok (run_mutexLock_of hp hlock)] at hrun
      obtain ⟨r, w₃, hlit, hrun₁⟩ := EStateM.run_bind_eq_ok.mp hrun
      refine ⟨rfl, ?_⟩
      obtain ⟨read, rfl, hthrough, -⟩ | ⟨res, rfl, -⟩ := spfsReadLit_ends hlit
      · have hsame : ReadsThrough { env with fuel := bound } w.bSize w.disk (w.time + 1) i.start inLen ppos :=
          hthrough
        have hio : env.ioOk = ({ env with fuel := bound } : Env).ioOk := rfl
        exact hsame.of_io hio
      · have hres : res = bytes.length := congrArg Prod.fst (EStateM.Result.ok.inj hrun₁).1
        have hneg := spfsReadLit_error hlit
        omega
  · rintro (rfl | ⟨hlock, hthrough⟩)
    · refine ⟨0, fun fuel _ => ⟨[], w, rfl, refl_of OnlyLogs w, ?_⟩⟩
      exact ⟨[], false, .nothing w _, by simp, fun h => absurd h (Nat.lt_irrefl 0)⟩
    exact readDelivers_of_through hp hsb hreg hlock hthrough

/-- Reads of one file by a reader who goes on where the last one stopped, up to one that
fails: the position, and what all of them copied. -/
def readPieces (p : ℕ) : List (Env × ℕ) → ℕ → Kernel (Option (ℕ × List UInt8))
  | [], ppos => return some (ppos, [])
  | (env, inLen) :: calls, ppos => do
    let (res, ppos, bytes) ← spfsRead env p inLen ppos
    if res < 0 then
      return none
    match ← readPieces p calls ppos with
    | none => return none
    | some (ppos, rest) => return some (ppos, bytes ++ rest)

theorem readPieces_shows {calls : List (Env × ℕ)} {ppos' : ℕ} {bytes : List UInt8}
    (hp : w.inodes p = some i) (hrun : (readPieces p calls ppos).run w = .ok (some (ppos', bytes)) w') :
    ppos' = ppos + bytes.length ∧ OnlyLogs w w' ∧
      Shows (FileBytes w i.start) ppos (calls.map Prod.snd).sum bytes := by
  induction calls generalizing ppos bytes w with
  | nil =>
    cases hrun
    exact ⟨rfl, refl_of OnlyLogs _, [], false, .nothing _ _, by simp, fun h => absurd h (Nat.lt_irrefl 0)⟩
  | cons call calls ih =>
    obtain ⟨⟨res, ppos₁, bytes₁⟩, w₁, hread, hrun₁⟩ := EStateM.run_bind_eq_ok.mp hrun
    dsimp only at hrun₁
    by_cases hres : res < 0
    · rw [if_pos hres] at hrun₁
      cases hrun₁
    rw [if_neg hres] at hrun₁
    obtain ⟨r, w₂, hrest, hrun₂⟩ := EStateM.run_bind_eq_ok.mp hrun₁
    obtain ⟨hdelivered, hshows⟩ := spfsRead_shows hp hread (Int.not_lt.mp hres)
    have hlogs := hdelivered.logs
    rcases r with _ | ⟨ppos₂, rest⟩
    · cases hrun₂
    cases hrun₂
    have hp₁ : w₁.inodes p = some i := by rw [hlogs.inodes, hp]
    obtain ⟨hppos, hlogs', hshows'⟩ := ih hp₁ hrest
    rw [FileBytes.congr hlogs.disk hlogs.bSize, hdelivered.ppos] at hshows'
    refine ⟨?_, trans_of OnlyLogs hlogs hlogs', ?_⟩
    · rw [hppos, hdelivered.ppos, List.length_append, Nat.add_assoc]
    · rw [List.map_cons, List.sum_cons]
      exact hshows.append (sees_fileBytes w i.start) hshows'

/-- A file read in pieces of any sizes, in any environments, is the file read at once: where
none of the reads fails, they show the window that they ask for together, and another reader
who asks for as much from the same position, in other pieces, gets the same bytes. -/
theorem readPieces_agree {calls calls' : List (Env × ℕ)} {ppos₁ ppos₂ : ℕ} {bytes₁ bytes₂ : List UInt8}
    {w₁ w₂ : World} (hp : w.inodes p = some i)
    (hsum : (calls.map Prod.snd).sum = (calls'.map Prod.snd).sum)
    (hrun : (readPieces p calls ppos).run w = .ok (some (ppos₁, bytes₁)) w₁)
    (hrun' : (readPieces p calls' ppos).run w₁ = .ok (some (ppos₂, bytes₂)) w₂) :
    bytes₁ = bytes₂ ∧ ppos₁ = ppos₂ ∧ ppos₁ = ppos + bytes₁.length ∧ OnlyLogs w w₂ ∧
      Shows (FileBytes w i.start) ppos (calls.map Prod.snd).sum bytes₁ := by
  obtain ⟨hppos, hlogs, hshows⟩ := readPieces_shows hp hrun
  have hp₁ : w₁.inodes p = some i := by rw [hlogs.inodes, hp]
  obtain ⟨hppos', hlogs', hshows'⟩ := readPieces_shows hp₁ hrun'
  rw [FileBytes.congr hlogs.disk hlogs.bSize, ← hsum] at hshows'
  have hsame := hshows.unique (sees_fileBytes w i.start) hshows'
  refine ⟨hsame, ?_, hppos, trans_of OnlyLogs hlogs hlogs', hshows⟩
  rw [hppos, hppos', hsame]

end Calls

/-- A file with the extent of ten bytes. -/
def tenBytesWorld : World := extentWorld.setInode 1 { plainFile 1 with start := 50, iSize := 10 }

theorem spfsRead_delivers_iff_tenBytes : ReadDelivers (.calm 9) tenBytesWorld 1 100 4 50 := by
  refine (spfsRead_delivers_iff (w := tenBytesWorld) (Function.update_self _ _ _) rfl rfl (.calm 9) 100 4).mpr (.inr ⟨rfl, ?_⟩)
  refine .extent (by decide) extentAt_extentWorld (by decide) (fun _ _ => rfl) fun _ => ?_
  exact .done

/-- Ten bytes, read in two pieces and in three. -/
theorem readPieces_agree_tenBytes : ∃ bytes bytes' w₁ w₂,
    (readPieces 1 [(.calm 9, 12), (.calm 9, 0)] 0).run tenBytesWorld = .ok (some (10, bytes)) w₁ ∧
      (readPieces 1 [(.calm 9, 0), (.calm 9, 11), (.calm 9, 1)] 0).run w₁ = .ok (some (10, bytes')) w₂ ∧
      bytes = bytes' := by
  obtain ⟨w₂, hboth⟩ : ∃ w₂, (do
      let r ← readPieces 1 [(.calm 9, 12), (.calm 9, 0)] 0
      let r' ← readPieces 1 [(.calm 9, 0), (.calm 9, 11), (.calm 9, 1)] 0
      return (r, r') : Kernel _).run tenBytesWorld =
        .ok (some (10, List.replicate 10 0), some (10, List.replicate 10 0)) w₂ := ⟨_, rfl⟩
  obtain ⟨r, w₁, hrun, hboth⟩ := EStateM.run_bind_eq_ok.mp hboth
  obtain ⟨r', w', hrun', hreturn⟩ := EStateM.run_bind_eq_ok.mp hboth
  cases hreturn
  have hp : tenBytesWorld.inodes 1 = some { plainFile 1 with start := 50, iSize := 10 } := rfl
  have hsum : ([(Env.calm 9, 12), (.calm 9, 0)].map Prod.snd).sum =
      ([(Env.calm 9, 0), (.calm 9, 11), (.calm 9, 1)].map Prod.snd).sum := rfl
  exact ⟨_, _, w₁, w₂, hrun, hrun', (readPieces_agree hp hsum hrun hrun').1⟩

end Spfs
