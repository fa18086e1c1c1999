import Mathlib.Data.List.Infix
import StubInsertion.Proofs.Source.Recovery

/-! # Where a block is placed

A text falls into the lines ahead of its first line of code and the lines from there on
(`Division`).  A plan leaves a marked text alone and writes the block between the two parts of any
other (`plan_eq`):

* **Ahead of code** nothing but the block is added, since every line ahead of another one ends in a
  newline.
* **At the end** of a text without code, newlines end its last line and leave one line empty. -/

namespace StubInsertion.Source

/-- `head` and `tail` are the lines of the text, and `tail` starts with the first line of code. -/
structure Division (text : Bytes) (head tail : List Bytes) : Prop where
  lines_eq : lines text = head ++ tail
  ahead : ∀ l ∈ head, LineKind.of l ≠ .code
  code : ∀ l ∈ tail.head?, LineKind.of l = .code

/-- The newlines between the lines ahead of a block and the block, with `tail` behind it. -/
def gap (text : Bytes) (tail : List Bytes) : Bytes :=
  if tail ≠ [] then [] else if Closed text then [newline] else [newline, newline]

theorem isPreamble_eq_false_iff {line : Bytes} :
    (LineKind.of line).isPreamble = false ↔ LineKind.of line = .code := by
  cases LineKind.of line <;> decide

theorem isPreamble_iff {line : Bytes} :
    (LineKind.of line).isPreamble = true ↔ LineKind.of line ≠ .code := by
  rw [Ne, ← isPreamble_eq_false_iff, Bool.not_eq_false]

/-- Every text can be divided. -/
theorem division (text : Bytes) : Division text (preamble (lines text)) (body (lines text)) where
  lines_eq := (preamble_append_body _).symm
  ahead l hl := by
    have hpre := List.mem_takeWhile_imp hl
    exact isPreamble_iff.mp hpre
  code l hl := by
    have hcode := List.head?_dropWhile_not (fun l => (LineKind.of l).isPreamble) (lines text)
    rw [← body, Option.mem_def.mp hl] at hcode
    exact isPreamble_eq_false_iff.mp hcode

/-- A text is closed if its last line is. -/
theorem closed_flatten_iff {ls : List Bytes} (hc : Cut ls) :
    Closed ls.flatten ↔ ls.getLast?.any isOpen = false := by
  rcases List.eq_nil_or_concat ls with rfl | ⟨head, l, rfl⟩
  · simp
  · have hb := List.getLast?_eq_some_getLast (hc.ne_nil l (by simp))
    simp [Closed, isOpen, hb]

theorem separator_eq_gap {text : Bytes} {head tail : List Bytes} (h : lines text = head ++ tail) :
    separator head tail = gap text tail := by
  have hcut : Cut (head ++ tail) := h ▸ cut_lines text
  unfold gap
  split
  · rename_i ht
    exact separator_of_ne_nil hcut ht
  · rename_i ht
    rw [not_not] at ht
    subst ht
    rw [List.append_nil] at h hcut
    have hclosed := closed_flatten_iff hcut
    rw [← h, flatten_lines, h] at hclosed
    rw [separator_nil]
    by_cases hopen : head.getLast?.any isOpen = true
    · rw [if_pos hopen, if_neg (by rw [hclosed, hopen]; decide)]
    · rw [if_neg hopen, if_pos (hclosed.mpr (by simpa using hopen))]

/-- **What a plan does.**  A text in which the marker stands is left alone.  Any other text falls
into the lines ahead of its first line of code and the lines from there on, and the block goes
between them; nothing else is added, unless no code follows. -/
theorem plan_eq (text : Bytes) (b : Block) : ∃ head tail, Division text head tail ∧
    text = head.flatten ++ tail.flatten ∧
    plan text b = if b.mark <:+: text then .alreadyMarked else
      .insert (head.length + 1) (head.flatten ++ gap text tail ++ b.bytes ++ tail.flatten) := by
  refine ⟨preamble (lines text), body (lines text), division text, ?_, ?_⟩
  · rw [← List.flatten_append, preamble_append_body, flatten_lines]
  · rw [← separator_eq_gap (preamble_append_body _).symm, ← splice_insertLine]
    unfold plan
    simp only [b.isMarked_mark_iff]
    rfl

/-- Behind a comment that no newline ends, two are added. -/
example : plan (utf8 "# c") Block.short = .insert 2 (utf8 "# c\n\nM\n") := by decide +kernel

end StubInsertion.Source
