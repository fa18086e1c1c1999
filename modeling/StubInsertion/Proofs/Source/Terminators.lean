import StubInsertion.Proofs.Source.Kinds
import StubInsertion.Proofs.Source.Placement

/-! # Line terminators

A text whose lines end in a newline and the same text with a carriage return ahead of every newline
(`crlf`) are treated alike.

* **Lines.** The lines of the one are the lines of the other (`lines_crlf`), of the same kinds
  (`of_crlf`), and a marker stands in both or in neither (`infix_crlf_iff`).
* **Plans.** `plan_crlf` says that a block goes to the same place in both, behind the same newlines,
  and that nothing of it is rewritten. -/

namespace StubInsertion

/-- The byte that some put ahead of the one that ends a line. -/
def carriageReturn : UInt8 := 0x0d

namespace Source

/-- The text with a carriage return ahead of every newline. -/
def crlf (text : Bytes) : Bytes :=
  text.flatMap fun b => if b = newline then [carriageReturn, newline] else [b]

@[simp] theorem crlf_nil : crlf [] = [] := rfl

@[simp] theorem crlf_newline (text : Bytes) :
    crlf (newline :: text) = carriageReturn :: newline :: crlf text := rfl

theorem crlf_cons {b : UInt8} (hb : b ≠ newline) (text : Bytes) :
    crlf (b :: text) = b :: crlf text := by
  rw [crlf, List.flatMap_cons, if_neg hb]
  rfl

theorem crlf_append (s t : Bytes) : crlf (s ++ t) = crlf s ++ crlf t := List.flatMap_append

theorem crlf_flatten (ls : List Bytes) : crlf ls.flatten = (ls.map crlf).flatten := by
  induction ls with
  | nil => rfl
  | cons l ls ih => rw [List.flatten_cons, crlf_append, ih, List.map_cons, List.flatten_cons]

theorem crlf_of_notMem {text : Bytes} (h : newline ∉ text) : crlf text = text := by
  induction text with
  | nil => rfl
  | cons b text ih =>
      rw [List.mem_cons, not_or] at h
      rw [crlf_cons (Ne.symm h.1), ih h.2]

theorem getLast?_crlf (text : Bytes) : (crlf text).getLast? = text.getLast? := by
  rcases List.eq_nil_or_concat text with rfl | ⟨init, b, rfl⟩
  · rfl
  · rw [List.concat_eq_append, crlf_append]
    by_cases hb : b = newline
    · subst hb
      simp
    · rw [crlf_cons hb, crlf_nil, List.getLast?_concat, List.getLast?_concat]

theorem closed_crlf {text : Bytes} : Closed (crlf text) ↔ Closed text := by
  rw [Closed, Closed, getLast?_crlf]

/-! ### Lines -/

/-- **Cutting commutes with rewriting.** -/
theorem lines_crlf (text : Bytes) : lines (crlf text) = (lines text).map crlf := by
  induction text with
  | nil => rfl
  | cons b text ih =>
      rw [lines_cons]
      split
      · rename_i hb
        subst hb
        rw [crlf_newline, lines_cons, if_neg (by decide), lines_cons, if_pos rfl, ih]
        rfl
      · rename_i hb
        rw [crlf_cons hb, lines_cons, if_neg hb, ih]
        cases lines text with
        | nil => simp [prepend, crlf_cons hb]
        | cons l ls => simp [prepend, crlf_cons hb]

/-- A line is its own text, or that and a newline. -/
theorem exists_text_of_line {line : Bytes} (hin : newline ∉ line.dropLast) :
    ∃ s, newline ∉ s ∧ (line = s ∨ line = s ++ [newline]) := by
  rcases List.eq_nil_or_concat line with rfl | ⟨s, b, rfl⟩
  · exact ⟨[], by simp, .inl rfl⟩
  · rw [List.concat_eq_append, List.dropLast_concat] at hin
    by_cases hb : b = newline
    · subst hb
      exact ⟨s, hin, .inr List.concat_eq_append⟩
    · refine ⟨s ++ [b], ?_, .inl List.concat_eq_append⟩
      simp [hin, Ne.symm hb]

/-- The terminator of a line does not make it what it is. -/
theorem of_crlf {line : Bytes} (hin : newline ∉ line.dropLast) :
    LineKind.of (crlf line) = LineKind.of line := by
  obtain ⟨s, hs, rfl | rfl⟩ := exists_text_of_line hin
  · rw [crlf_of_notMem hs]
  · rw [crlf_append, crlf_of_notMem hs, LineKind.of_append s (by decide),
      LineKind.of_append s (by decide)]

/-- Every division is the one at the first line of code. -/
theorem Division.eq {text : Bytes} {head tail : List Bytes} (h : Division text head tail) :
    head = preamble (lines text) ∧ tail = body (lines text) := by
  have hhead : ∀ l ∈ head, (LineKind.of l).isPreamble = true :=
    fun l hl => isPreamble_iff.mpr (h.ahead l hl)
  have hpre : preamble tail = [] := by
    cases tail with
    | nil => rfl
    | cons l tail =>
        refine List.takeWhile_cons_of_neg ?_
        rw [isPreamble_eq_false_iff.mpr (h.code l rfl)]
        decide
  have heq : preamble (lines text) = head := by
    rw [preamble, h.lines_eq, List.takeWhile_append_of_pos hhead, ← preamble, hpre,
      List.append_nil]
  refine ⟨heq.symm, ?_⟩
  have hsplit := preamble_append_body (lines text)
  rw [heq] at hsplit
  exact (List.append_cancel_left (hsplit.trans h.lines_eq)).symm

/-- What a plan does to a divided text. -/
theorem Division.planned {text : Bytes} {head tail : List Bytes} (h : Division text head tail)
    (b : Block) : plan text b = if b.mark <:+: text then .alreadyMarked else
      .insert (head.length + 1) (head.flatten ++ gap text tail ++ b.bytes ++ tail.flatten) := by
  rw [← separator_eq_gap h.lines_eq, h.eq.1, h.eq.2, ← splice_insertLine]
  unfold plan
  simp only [b.isMarked_mark_iff]
  rfl

theorem Division.crlf {text : Bytes} {head tail : List Bytes} (h : Division text head tail) :
    Division (Source.crlf text) (head.map Source.crlf) (tail.map Source.crlf) := by
  have hkind : ∀ l ∈ head ++ tail, LineKind.of (Source.crlf l) = LineKind.of l := by
    rw [← h.lines_eq]
    exact fun l hl => of_crlf ((cut_lines text).inner l hl)
  refine ⟨by rw [lines_crlf, h.lines_eq, List.map_append], ?_, ?_⟩
  · intro l hl
    obtain ⟨k, hk, rfl⟩ := List.mem_map.mp hl
    rw [hkind k (List.mem_append_left _ hk)]
    exact h.ahead k hk
  · intro l hl
    cases tail with
    | nil => cases hl
    | cons k tail =>
        cases hl
        rw [hkind k (by simp)]
        exact h.code k rfl

theorem gap_crlf (text : Bytes) (tail : List Bytes) :
    gap (crlf text) (tail.map crlf) = gap text tail := by
  unfold gap
  simp only [closed_crlf, ne_eq, List.map_eq_nil_iff]

/-! ### Markers -/

/-- Words without the two bytes do not feel the rewriting. -/
theorem prefix_crlf_iff {word text : Bytes} (hcr : carriageReturn ∉ word) (hin : newline ∉ word) :
    word <+: crlf text ↔ word <+: text := by
  induction word generalizing text with
  | nil => simp
  | cons w word ih =>
      rw [List.mem_cons, not_or] at hcr hin
      cases text with
      | nil => simp
      | cons b text =>
          by_cases hb : b = newline
          · subst hb
            rw [crlf_newline, List.cons_prefix_cons, List.cons_prefix_cons]
            exact ⟨fun h => absurd h.1.symm hcr.1, fun h => absurd h.1.symm hin.1⟩
          · rw [crlf_cons hb, List.cons_prefix_cons, List.cons_prefix_cons, ih hcr.2 hin.2]

theorem infix_crlf_iff {word text : Bytes} (hcr : carriageReturn ∉ word) (hin : newline ∉ word) :
    word <:+: crlf text ↔ word <:+: text := by
  cases word with
  | nil => simp
  | cons w word =>
      induction text with
      | nil => simp
      | cons b text ih =>
          rw [List.infix_cons_iff, ← prefix_crlf_iff hcr hin, ← ih]
          by_cases hb : b = newline
          · subst hb
            rw [crlf_newline, List.infix_cons_iff, List.infix_cons_iff]
            -- the word begins with neither of the two bytes
            have hnot : ¬ w :: word <+: newline :: crlf text := by
              intro h
              exact hin (List.mem_cons.mpr (.inl (List.cons_prefix_cons.mp h).1.symm))
            simp [hnot]
          · rw [crlf_cons hb, List.infix_cons_iff]

end Source

theorem Block.carriageReturn_notMem_mark (b : Block) : carriageReturn ∉ b.mark := by
  intro hmem
  have h := b.marker_one_line
  rw [hasLineBreak, List.any_eq_false] at h
  exact h '\r' ((ascii_mem_utf8 (d := '\r') (by decide)).mp hmem) (by decide)

namespace Source

/-- **Line terminators do not matter.**  A text and the same text with a carriage return ahead of
every newline are both marked or both not.  If they are not, the block goes ahead of the same line
of both, behind the same newlines; it is written as it stands, and so is everything around it. -/
theorem plan_crlf (text : Bytes) (b : Block) :
    (plan (crlf text) b = .alreadyMarked ↔ plan text b = .alreadyMarked) ∧
    ∀ line contents, plan text b = .insert line contents → ∃ head tail,
      Division text head tail ∧ text = head.flatten ++ tail.flatten ∧
      contents = head.flatten ++ gap text tail ++ b.bytes ++ tail.flatten ∧
      plan (crlf text) b =
        .insert line (crlf head.flatten ++ gap text tail ++ b.bytes ++ crlf tail.flatten) := by
  have hd := division text
  have hmark : b.mark <:+: crlf text ↔ b.mark <:+: text :=
    infix_crlf_iff b.carriageReturn_notMem_mark b.newline_notMem_mark
  have hplan := hd.planned b
  have hplan' := hd.crlf.planned b
  rw [gap_crlf, ← crlf_flatten, ← crlf_flatten, List.length_map] at hplan'
  simp only [hmark] at hplan'
  refine ⟨by rw [hplan, hplan']; split <;> simp, ?_⟩
  intro line contents h
  refine ⟨_, _, hd, ?_, ?_⟩
  · rw [← List.flatten_append, preamble_append_body, flatten_lines]
  · rw [hplan] at h
    split at h
    · cases h
    · rename_i hnot
      cases h
      rw [hplan', if_neg hnot]
      exact ⟨rfl, rfl⟩

/-- A future import, an empty line and a line of code that nothing ends. -/
theorem plan_crlf_import :
    plan (utf8 "from __future__ import a\n\nx = 1") Block.short =
        .insert 3 (utf8 "from __future__ import a\n\nM\nx = 1") ∧
      ∃ head tail, Division (utf8 "from __future__ import a\n\nx = 1") head tail ∧
        utf8 "from __future__ import a\n\nx = 1" = head.flatten ++ tail.flatten ∧
        utf8 "from __future__ import a\n\nM\nx = 1" = head.flatten ++
          gap (utf8 "from __future__ import a\n\nx = 1") tail ++ Block.short.bytes ++ tail.flatten ∧
        plan (crlf (utf8 "from __future__ import a\n\nx = 1")) Block.short =
          .insert 3 (crlf head.flatten ++ gap (utf8 "from __future__ import a\n\nx = 1") tail ++
            Block.short.bytes ++ crlf tail.flatten) := by
  have h : plan (utf8 "from __future__ import a\n\nx = 1") Block.short =
      .insert 3 (utf8 "from __future__ import a\n\nM\nx = 1") := by decide +kernel
  exact ⟨h, (plan_crlf _ Block.short).2 3 _ h⟩

/-- The newline of the block stays what it is. -/
example : plan (crlf (utf8 "# c\nx = 1\n")) Block.short =
    .insert 2 (utf8 "# c\r\nM\nx = 1\r\n") := by decide +kernel

end Source

end StubInsertion
