import StubInsertion.Proofs.Source.Recovery

/-! # A block at any line number

Nothing is asked of the lines here: any of them may be empty or lack its newline, wherever it
stands.  Nor is anything asked of the number.

* **Parts.**  `Parted` says how the lines fall apart at a number.  The ones ahead get the newlines
  it takes for the block to start on a line of its own: at most two, one behind an open line and one
  at the end of the text (`separator_eq_replicate`).  They are enough whatever the lines are
  (`closed_append_separator`).
* **Numbers out of range.**  A number matters only by the lines ahead of it (`splice_congr`), so it
  counts as the nearest one from one to one past the last line (`splice_nearest`).

`splice_parted` says both of all splices. -/

namespace StubInsertion.Source

/-- How many newlines go behind the lines `head`, with `tail` behind the block: one if the last line
of `head` is open, and one if `tail` has no line. -/
def newlinesAhead (head tail : List Bytes) : Nat :=
  (head.getLast?.any isOpen).toNat + tail.isEmpty.toNat

/-- The lines fall into those ahead of line number `line` and those from there on, and a few
newlines behind the first ones start another line. -/
structure Parted (ls : List Bytes) (line : Nat) (head tail : List Bytes) : Prop where
  lines_eq : ls = head ++ tail
  length_head : 1 ≤ line → line ≤ ls.length + 1 → head.length = line - 1
  few : newlinesAhead head tail ≤ 2
  closed : Closed (head.flatten ++ List.replicate (newlinesAhead head tail) newline)

/-! ### What is added -/

theorem newlinesAhead_le (head tail : List Bytes) : newlinesAhead head tail ≤ 2 :=
  Nat.add_le_add (Bool.toNat_le _) (Bool.toNat_le _)

theorem separator_eq_replicate (head tail : List Bytes) :
    separator head tail = List.replicate (newlinesAhead head tail) newline := by
  unfold separator newlinesAhead
  cases head.getLast?.any isOpen <;> cases tail.isEmpty <;> rfl

/-- Lines can be parted at any number. -/
theorem parted (ls : List Bytes) (line : Nat) :
    Parted ls line (ls.take (line - 1)) (ls.drop (line - 1)) where
  lines_eq := (List.take_append_drop (line - 1) ls).symm
  length_head hpos hle := by
    rw [List.length_take]
    omega
  few := newlinesAhead_le _ _
  closed := by
    rw [← separator_eq_replicate]
    exact closed_append_separator _ _

/-! ### The line number -/

/-- Two numbers with as many lines ahead of them give the same result. -/
theorem splice_congr {ls : List Bytes} {m n : Nat}
    (h : min (m - 1) ls.length = min (n - 1) ls.length) (block : Bytes) :
    splice ls m block = splice ls n block := by
  have htake : ls.take (m - 1) = ls.take (n - 1) := List.take_eq_take_iff.mpr h
  have hdrop : ls.drop (m - 1) = ls.drop (n - 1) := List.drop_eq_drop_iff.mpr h
  unfold splice
  rw [htake, hdrop]

/-- A number that is out of range counts as the nearest one in range. -/
theorem splice_nearest (ls : List Bytes) (line : Nat) (block : Bytes) :
    splice ls line block = splice ls (max 1 (min line (ls.length + 1))) block := by
  apply splice_congr
  omega

/-- **A block starts on a line of its own, and only newlines come with it.**  At any number, any
lines fall into two parts, and every block stands between them behind the newlines that start a
line.  A number that is out of range counts as the nearest one in range. -/
theorem splice_parted (ls : List Bytes) (line : Nat) :
    (∃ head tail, Parted ls line head tail ∧ ∀ block, splice ls line block =
      (head.flatten ++ List.replicate (newlinesAhead head tail) newline) ++ block ++
        tail.flatten) ∧
    ∀ block, splice ls line block = splice ls (max 1 (min line (ls.length + 1))) block := by
  refine ⟨⟨_, _, parted ls line, ?_⟩, splice_nearest ls line⟩
  intro block
  rw [← separator_eq_replicate]
  rfl

/-- An empty line counts as open, so a newline goes behind it although the line ahead of it has one;
and line nine of three lines is the fourth. -/
theorem splice_parted_empty_line :
    (∃ head tail, Parted [utf8 "a\n", [], utf8 "b"] 3 head tail ∧ head.length = 2 ∧
      splice [utf8 "a\n", [], utf8 "b"] 3 (utf8 "M") =
        (head.flatten ++ List.replicate (newlinesAhead head tail) newline) ++ utf8 "M" ++
          tail.flatten) ∧
      splice [utf8 "a\n", [], utf8 "b"] 3 (utf8 "M") = utf8 "a\n\nMb" ∧
      splice [utf8 "a\n", [], utf8 "b"] 9 (utf8 "M") =
        splice [utf8 "a\n", [], utf8 "b"] 4 (utf8 "M") := by
  obtain ⟨⟨head, tail, hparted, hsplice⟩, -⟩ := splice_parted [utf8 "a\n", [], utf8 "b"] 3
  refine ⟨⟨head, tail, hparted, ?_, hsplice _⟩, by decide +kernel, ?_⟩
  · exact hparted.length_head (by decide) (by decide)
  · exact (splice_parted [utf8 "a\n", [], utf8 "b"] 9).2 (utf8 "M")

end StubInsertion.Source
