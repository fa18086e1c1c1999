import StubInsertion.Proofs.Source.Recovery

/-! # The lines around a block

A block that ends in a newline is a piece of a text: the result of a plan has the lines ahead of the
block, the lines of the block and the lines behind it, each as it was.  If the last line of the block
is open and code follows, it takes the first line of code with it.

* **Ahead.** `closeLast` ends the last line of a text, so that what follows starts on a line of its
  own (`flatten_append_separator`).
* **Layout.** `layout` lists the lines that a plan should give, and `lines_of_plan_iff` says that it
  gives them exactly when the block ends in a newline or no code follows.
* **Failure.** `open_block_joins_code` is a block that swallows a line of code. -/

namespace StubInsertion

/-- A block whose only line is open: the comment `# M`. -/
def Block.openComment : Block :=
  { Block.short with text := "# M", marker_in_text := by decide +kernel }

namespace Source

/-- The lines, the last of them with a newline. -/
def closeLast : List Bytes → List Bytes
  | [] => []
  | [l] => [if isOpen l then l ++ [newline] else l]
  | l :: m :: ls => l :: closeLast (m :: ls)

/-- Is there a line of code among the lines? -/
def hasCode (ls : List Bytes) : Bool := ls.any fun l => !(LineKind.of l).isPreamble

/-- The lines of a text with a block before line number `line`: the lines ahead, an empty line if no
code follows, the block, and the lines behind. -/
def layout (text : Bytes) (b : Block) (line : Nat) : List Bytes :=
  closeLast ((lines text).take (line - 1)) ++
    (if hasCode ((lines text).drop (line - 1)) then [] else [[newline]]) ++
    lines b.bytes ++ (lines text).drop (line - 1)

/-! ### Ahead of the block -/

theorem closeLast_append {head : List Bytes} {l : Bytes} :
    closeLast (head ++ [l]) = head ++ [if isOpen l then l ++ [newline] else l] := by
  induction head with
  | nil => rfl
  | cons m head ih =>
      cases head with
      | nil => rfl
      | cons k head => exact congrArg (m :: ·) ih

theorem flatten_closeLast (ls : List Bytes) :
    (closeLast ls).flatten = ls.flatten ++ (if ls.getLast?.any isOpen then [newline] else []) := by
  rcases List.eq_nil_or_concat ls with rfl | ⟨head, l, rfl⟩
  · rfl
  · rw [List.concat_eq_append, closeLast_append]
    cases h : isOpen l <;> simp [h]

theorem closed_flatten_closeLast (ls : List Bytes) : Closed (closeLast ls).flatten := by
  rw [flatten_closeLast]
  exact closed_flatten_append ls

theorem Cut.closeLast {ls : List Bytes} (h : Cut ls) : Cut (closeLast ls) := by
  induction ls with
  | nil => exact h
  | cons l ls ih =>
      cases ls with
      | cons m ls =>
          obtain ⟨hl, hrest⟩ := cut_cons_cons.mp h
          have ih := ih hrest
          cases ls <;> exact cut_cons_cons.mpr ⟨hl, ih⟩
      | nil =>
          unfold Source.closeLast
          split
          · rename_i hopen
            refine cut_singleton (by simp) ?_
            -- an open line holds no newline at all
            rw [List.dropLast_concat]
            intro hmem
            obtain ⟨init, b, rfl⟩ : ∃ init b, l = init ++ [b] := by
              rcases List.eq_nil_or_concat l with rfl | ⟨init, b, rfl⟩
              · cases hmem
              · exact ⟨init, b, by simp⟩
            have hin := h.inner _ (List.mem_singleton_self _)
            rw [List.dropLast_concat] at hin
            rcases List.mem_append.mp hmem with hmem | hmem
            · exact hin hmem
            · simp [isOpen, List.mem_singleton.mp hmem] at hopen
          · exact h

/-- What stands ahead of a block ends the last line, and adds an empty one at the end of a text. -/
theorem flatten_append_separator (head tail : List Bytes) :
    head.flatten ++ separator head tail =
      (closeLast head).flatten ++ (if tail.isEmpty then [newline] else []) := by
  rw [flatten_closeLast, separator, List.append_assoc]

/-- The lines ahead of a block. -/
theorem lines_append_separator {head : List Bytes} (hc : Cut head) (tail : List Bytes) :
    lines (head.flatten ++ separator head tail) =
      closeLast head ++ (if tail.isEmpty then [[newline]] else []) := by
  rw [flatten_append_separator, lines_append (closed_flatten_closeLast head),
    lines_flatten hc.closeLast]
  split <;> rfl

/-! ### Behind the block -/

theorem hasCode_eq_false_iff {ls : List Bytes} : hasCode ls = false ↔ body ls = [] := by
  rw [body_eq_nil_iff, hasCode, List.any_eq_false]
  simp

theorem hasCode_eq (ls : List Bytes) : hasCode ls = !(body ls).isEmpty := by
  cases hbody : body ls with
  | nil => exact hasCode_eq_false_iff.mpr hbody
  | cons l tail =>
      have hcode : ¬ hasCode ls = false := by
        rw [hasCode_eq_false_iff, hbody]
        exact List.cons_ne_nil l tail
      exact (Bool.not_eq_false _).mp hcode

/-! ### The whole text -/

theorem line_of_plan {text contents : Bytes} {b : Block} {line : Nat}
    (h : plan text b = .insert line contents) : line = insertLine (lines text) ∧
      contents = splice (lines text) (insertLine (lines text)) b.bytes := by
  unfold plan at h
  split at h
  · cases h
  · cases h
    exact ⟨rfl, rfl⟩

/-- **Lines stay lines.**  A plan gives the lines ahead of the block, those of the block and those
behind it, exactly if the block ends in a newline or the text has no code. -/
theorem lines_of_plan_iff (text contents : Bytes) (b : Block) (line : Nat)
    (h : plan text b = .insert line contents) :
    lines contents = layout text b line ↔ Closed b.bytes ∨ hasCode (lines text) = false := by
  obtain ⟨rfl, rfl⟩ := line_of_plan h
  have hcut := cut_preamble_body text
  have hahead : layout text b (insertLine (lines text)) =
      lines ((preamble (lines text)).flatten ++
        separator (preamble (lines text)) (body (lines text))) ++
        (lines b.bytes ++ body (lines text)) := by
    unfold layout insertLine
    rw [Nat.add_sub_cancel, take_preamble, drop_preamble, hasCode_eq, body_body,
      lines_append_separator hcut.left]
    cases (body (lines text)).isEmpty <;> simp
  rw [hahead, splice_insertLine, List.append_assoc _ b.bytes,
    lines_append (closed_append_separator _ _), List.append_cancel_left_eq,
    lines_append_iff hcut.right, hasCode_eq_false_iff]

/-- A block with a newline at its end, ahead of a line of code. -/
theorem lines_of_plan_iff_short :
    plan (utf8 "# c\nx = 1") Block.short = .insert 2 (utf8 "# c\nM\nx = 1") ∧
      lines (utf8 "# c\nM\nx = 1") = layout (utf8 "# c\nx = 1") Block.short 2 := by
  have h : plan (utf8 "# c\nx = 1") Block.short = .insert 2 (utf8 "# c\nM\nx = 1") := by
    decide +kernel
  exact ⟨h, (lines_of_plan_iff _ _ Block.short 2 h).mpr (.inl (by decide +kernel))⟩

/-- The block `# M` without a newline makes a comment of the line of code that follows it: the text
has one line then, and the line of code is none of them. -/
theorem open_block_joins_code :
    Block.make "M" "# M" = .ok Block.openComment ∧
      plan (utf8 "import os\n") Block.openComment = .insert 1 (utf8 "# Mimport os\n") ∧
      lines (utf8 "# Mimport os\n") ≠ layout (utf8 "import os\n") Block.openComment 1 ∧
      utf8 "import os\n" ∉ lines (utf8 "# Mimport os\n") := by
  refine ⟨by decide +kernel, by decide +kernel, by decide +kernel, by decide +kernel⟩

end Source

end StubInsertion
