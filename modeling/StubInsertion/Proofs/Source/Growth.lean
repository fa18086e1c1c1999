import StubInsertion.Proofs.Source.Kinds
import StubInsertion.Proofs.Source.Layout

/-! # How a text grows

A text is measured by the number of its lines and by the line that the next block goes ahead of.  A
block that is spliced in at that line adds its own measures, and one line more if the text has no
code: that line stays empty, and counts as one that a block may follow.

* **Lines.** `lines_splice` lists the lines of the result.  Those that were ahead of the block may
  have gained a newline, which does not make code of them (`isPreamble_closeLast`).
* **Measures.** `extent_splice` says how the measures change, and `splices_grow` that those a session
  reports can be worked out from those of its blocks alone. -/

namespace StubInsertion.Source

/-- The measures of a text. -/
structure Extent where
  /-- the number of lines -/
  count : Nat
  /-- the number of the line that the next block goes ahead of -/
  next : Nat
  deriving DecidableEq, Repr

/-- The measures of a text. -/
def extent (text : Bytes) : Extent := ⟨(lines text).length, insertLine (lines text)⟩

namespace Extent

/-- The empty lines ahead of the next block: one, if the block goes behind the last line. -/
def spacing (e : Extent) : Nat := if e.next = e.count + 1 then 1 else 0

/-- The measures once a block has been spliced in. -/
def grow (e block : Extent) : Extent :=
  ⟨e.count + e.spacing + block.count, e.next - 1 + e.spacing + block.next⟩

end Extent

/-! ### Lines -/

/-- The lines of a text with a block ahead of its first line of code. -/
theorem lines_splice {text block : Bytes} (h : Closed block ∨ body (lines text) = []) :
    lines (splice (lines text) (insertLine (lines text)) block) =
      closeLast (preamble (lines text)) ++
        (if (body (lines text)).isEmpty then [[newline]] else []) ++
        (lines block ++ body (lines text)) := by
  have hcut := cut_preamble_body text
  rw [splice_insertLine, List.append_assoc _ block, lines_append (closed_append_separator _ _),
    lines_append_separator hcut.left, (lines_append_iff hcut.right).mpr h]

theorem length_closeLast (ls : List Bytes) : (closeLast ls).length = ls.length := by
  rcases List.eq_nil_or_concat ls with rfl | ⟨head, l, rfl⟩
  · rfl
  · rw [List.concat_eq_append, closeLast_append]
    simp

/-- A newline does not make code of a line. -/
theorem isPreamble_closeLast {ls : List Bytes}
    (h : ∀ l ∈ ls, (LineKind.of l).isPreamble = true) :
    ∀ l ∈ closeLast ls, (LineKind.of l).isPreamble = true := by
  rcases List.eq_nil_or_concat ls with rfl | ⟨head, k, rfl⟩
  · exact h
  · rw [List.concat_eq_append] at h ⊢
    rw [closeLast_append]
    intro l hl
    rcases List.mem_append.mp hl with hl | hl
    · exact h l (List.mem_append_left _ hl)
    · have hk := h k (by simp)
      rw [List.mem_singleton.mp hl]
      split
      · rwa [LineKind.of_append k (by decide)]
      · exact hk

theorem isPreamble_of_mem_preamble {ls : List Bytes} {l : Bytes} (h : l ∈ preamble ls) :
    (LineKind.of l).isPreamble = true :=
  List.mem_takeWhile_imp (p := fun l => (LineKind.of l).isPreamble) h

/-- Lines from a line of code on do not count as lines ahead of code. -/
theorem preamble_append_code (ls ks : List Bytes) : preamble (ls ++ body ks) = preamble ls := by
  induction ls with
  | cons l ls ih =>
      rw [List.cons_append, preamble, preamble, List.takeWhile_cons, List.takeWhile_cons]
      split
      · exact congrArg (l :: ·) ih
      · rfl
  | nil =>
      induction ks with
      | nil => rfl
      | cons k ks ih =>
          unfold body
          rw [List.dropWhile_cons]
          split
          · exact ih
          · rename_i hcode
            exact List.takeWhile_cons_of_neg hcode

/-! ### Measures -/

theorem length_preamble_add_length_body (ls : List Bytes) :
    (preamble ls).length + (body ls).length = ls.length := by
  rw [← List.length_append, preamble_append_body]

theorem spacing_extent (text : Bytes) :
    (extent text).spacing = if hasCode (lines text) then 0 else 1 := by
  have hlen := length_preamble_add_length_body (lines text)
  unfold Extent.spacing extent insertLine
  rw [hasCode_eq]
  cases hbody : body (lines text) with
  | nil =>
      rw [hbody, List.length_nil] at hlen
      rw [if_pos (by simp only []; omega)]
      rfl
  | cons l ls =>
      rw [hbody, List.length_cons] at hlen
      rw [if_neg (by simp only []; omega)]
      rfl

/-- **A block adds its measures**, and the empty line ahead of it. -/
theorem extent_splice {text block : Bytes} (h : Closed block ∨ hasCode (lines text) = false) :
    extent (splice (lines text) (insertLine (lines text)) block) =
      (extent text).grow (extent block) := by
  have hspace : (extent text).spacing =
      (if (body (lines text)).isEmpty then [[newline]] else []).length := by
    rw [spacing_extent, hasCode_eq]
    cases (body (lines text)).isEmpty <;> rfl
  have hahead : ∀ l ∈ closeLast (preamble (lines text)) ++
      (if (body (lines text)).isEmpty then [[newline]] else []),
      (LineKind.of l).isPreamble = true := by
    intro l hl
    rcases List.mem_append.mp hl with hl | hl
    · exact isPreamble_closeLast (fun k => isPreamble_of_mem_preamble) l hl
    · split at hl
      · rw [List.mem_singleton.mp hl]
        decide
      · cases hl
  have hlen := length_preamble_add_length_body (lines text)
  unfold Extent.grow
  rw [hspace]
  unfold extent
  rw [lines_splice (h.imp_right hasCode_eq_false_iff.mp)]
  congr 1
  · simp only [List.length_append, length_closeLast]
    omega
  · unfold insertLine
    rw [preamble, List.takeWhile_append_of_pos hahead, ← preamble, preamble_append_code]
    simp only [List.length_append, length_closeLast]
    omega

/-! ### Sessions -/

/-- The steps that splice blocks, each at the line that the next block goes ahead of. -/
def splices (blocks : List Bytes) : List Step := blocks.map fun block => .splice block none

/-- What is reported after each step of a session. -/
def measured (results : List (Answer × Bytes)) : List Extent :=
  results.map fun result => extent result.2

theorem measured_splices {blocks : List Bytes} (hblocks : ∀ block ∈ blocks, Closed block)
    (text : Bytes) : extent text :: measured (session text (splices blocks)) =
      (blocks.map extent).scanl Extent.grow (extent text) := by
  induction blocks generalizing text with
  | nil => rfl
  | cons block blocks ih =>
      obtain ⟨hblock, hrest⟩ := List.forall_mem_cons.mp hblocks
      rw [List.map_cons, List.scanl_cons, ← extent_splice (.inl hblock), ← ih hrest]
      rfl

/-- **Where the next block goes.**  A block that is closed, or goes behind the last line, adds its
lines to those of the text, and the lines that a block may follow at its start to those of the text;
a text without code gains one line more.  So what a session of such splices reports after each step
follows from the measures of the text it starts with and of its blocks. -/
theorem splices_grow (text : Bytes) :
    (∀ block, Closed block ∨ hasCode (lines text) = false →
      let result := splice (lines text) (insertLine (lines text)) block
      let s := if hasCode (lines text) then 0 else 1
      (lines result).length = (lines text).length + s + (lines block).length ∧
        insertLine (lines result) = insertLine (lines text) - 1 + s + insertLine (lines block)) ∧
    ∀ blocks : List Bytes, (∀ block ∈ blocks, Closed block) →
      extent text :: measured (session text (splices blocks)) =
        (blocks.map extent).scanl Extent.grow (extent text) := by
  refine ⟨?_, fun blocks hblocks => measured_splices hblocks text⟩
  intro block h
  have hgrow := extent_splice h
  rw [Extent.grow, spacing_extent] at hgrow
  exact ⟨congrArg Extent.count hgrow, congrArg Extent.next hgrow⟩

/-- A comment that nothing ends, with another one behind it; and then three blocks one after the
other: code, nothing, and a comment that goes ahead of the code. -/
theorem splices_grow_comment :
    hasCode (lines (utf8 "# c")) = false ∧
      insertLine (lines (splice (lines (utf8 "# c")) 2 (utf8 "# d"))) = 4 ∧
      (∀ block ∈ [utf8 "x = 1\n", [], utf8 "# d\n"], Closed block) ∧
      measured (session (utf8 "# c") (splices [utf8 "x = 1\n", [], utf8 "# d\n"])) =
        [⟨3, 3⟩, ⟨3, 3⟩, ⟨4, 4⟩] := by
  have hcode : hasCode (lines (utf8 "# c")) = false := by decide +kernel
  have hclosed : ∀ block ∈ [utf8 "x = 1\n", [], utf8 "# d\n"], Closed block := by decide +kernel
  refine ⟨hcode, ?_, hclosed, ?_⟩
  · exact ((splices_grow (utf8 "# c")).1 (utf8 "# d") (.inr hcode)).2
  · exact (List.cons.inj ((splices_grow (utf8 "# c")).2 _ hclosed)).2

end StubInsertion.Source
