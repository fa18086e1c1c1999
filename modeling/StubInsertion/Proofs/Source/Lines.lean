import StubInsertion.Source.Lines

/-! # Cutting a text into lines

A text that is empty or ends in a newline is *closed*: whatever is written after it starts on a
line of its own.

* **Cuts.** `Cut ls` says that `ls` is a list of lines: no line is empty, a newline stands at the
  end of a line only, and every line but the last has one.  `cut_lines` and `lines_flatten` say that
  `lines` gives the one cut of a text.
* **Joints.** Cutting goes piece by piece behind a closed text (`lines_append`), and the lines
  ahead of another line are a closed text (`Cut.closed_flatten`).  `unique_cut` says both of all
  texts.
* **Search.** A word that holds no newline, except perhaps at its end, stands in a text if and only
  if it stands in one of its lines (`exists_mem_lines_iff`, `isMarked_iff_occurs`). -/

namespace StubInsertion.Source

/-! ### Closed texts -/

/-- Empty, or ending in a newline. -/
def Closed (text : Bytes) : Prop := ∀ b ∈ text.getLast?, b = newline

instance (text : Bytes) : Decidable (Closed text) :=
  inferInstanceAs (Decidable (∀ b ∈ text.getLast?, b = newline))

@[simp] theorem closed_nil : Closed [] := by simp [Closed]

theorem closed_singleton {b : UInt8} : Closed [b] ↔ b = newline := by simp [Closed]

theorem closed_cons_cons {b c : UInt8} {text : Bytes} :
    Closed (b :: c :: text) ↔ Closed (c :: text) := by
  unfold Closed
  rw [List.getLast?_cons_cons]

@[simp] theorem closed_concat_newline (text : Bytes) : Closed (text ++ [newline]) := by
  simp [Closed]

theorem Closed.append {a b : Bytes} (ha : Closed a) (hb : Closed b) : Closed (a ++ b) := by
  intro c hc
  rw [List.getLast?_append] at hc
  cases h : b.getLast? with
  | none =>
      rw [h] at hc
      exact ha c hc
  | some d =>
      rw [h] at hc
      exact hb c (by rw [h]; exact hc)

theorem not_isOpen_iff {line : Bytes} : isOpen line = false ↔ line.getLast? = some newline := by
  simp [isOpen]

/-! ### The cut of a text -/

/-- `ls` is a text in lines. -/
structure Cut (ls : List Bytes) : Prop where
  ne_nil : ∀ l ∈ ls, l ≠ []
  inner : ∀ l ∈ ls, newline ∉ l.dropLast
  ended : ∀ l ∈ ls.dropLast, l.getLast? = some newline

theorem cut_nil : Cut [] := ⟨by simp, by simp, by simp⟩

theorem cut_singleton {l : Bytes} (hne : l ≠ []) (hin : newline ∉ l.dropLast) : Cut [l] :=
  ⟨by simpa using hne, by simpa using hin, by simp⟩

theorem cut_cons_cons {l m : Bytes} {ls : List Bytes} :
    Cut (l :: m :: ls) ↔
      (l ≠ [] ∧ newline ∉ l.dropLast ∧ l.getLast? = some newline) ∧ Cut (m :: ls) := by
  constructor
  · intro h
    refine ⟨⟨h.ne_nil l (by simp), h.inner l (by simp), h.ended l (by simp)⟩, ?_, ?_, ?_⟩
    · exact fun k hk => h.ne_nil k (List.mem_cons_of_mem _ hk)
    · exact fun k hk => h.inner k (List.mem_cons_of_mem _ hk)
    · intro k hk
      exact h.ended k (by rw [List.dropLast_cons_cons]; exact List.mem_cons_of_mem _ hk)
  · rintro ⟨⟨h1, h2, h3⟩, h⟩
    refine ⟨?_, ?_, ?_⟩
    · intro k hk
      rcases List.mem_cons.mp hk with rfl | hk
      · exact h1
      · exact h.ne_nil k hk
    · intro k hk
      rcases List.mem_cons.mp hk with rfl | hk
      · exact h2
      · exact h.inner k hk
    · intro k hk
      rw [List.dropLast_cons_cons] at hk
      rcases List.mem_cons.mp hk with rfl | hk
      · exact h3
      · exact h.ended k hk

theorem Cut.tail {l : Bytes} {ls : List Bytes} (h : Cut (l :: ls)) : Cut ls := by
  cases ls with
  | nil => exact cut_nil
  | cons m ls => exact (cut_cons_cons.mp h).2

/-- A newline ahead of a cut is a line of its own. -/
theorem Cut.cons_newline {ls : List Bytes} (h : Cut ls) : Cut ([newline] :: ls) := by
  cases ls with
  | nil => exact cut_singleton (by simp) (by simp)
  | cons m ls => exact cut_cons_cons.mpr ⟨by simp, h⟩

/-- Any other byte joins the first line. -/
theorem Cut.prepend {b : UInt8} {ls : List Bytes} (hb : b ≠ newline) (h : Cut ls) :
    Cut (prepend [b] ls) := by
  cases ls with
  | nil => exact cut_singleton (by simp) (by simp)
  | cons l ls =>
      have hl : l ≠ [] := h.ne_nil l (by simp)
      obtain ⟨c, l', rfl⟩ := List.exists_cons_of_ne_nil hl
      have hin : newline ∉ (b :: c :: l').dropLast := by
        rw [List.dropLast_cons_cons, List.mem_cons, not_or]
        exact ⟨Ne.symm hb, h.inner _ (by simp)⟩
      cases ls with
      | nil => exact cut_singleton (by simp) hin
      | cons m ls =>
          have hc := cut_cons_cons.mp h
          exact cut_cons_cons.mpr
            ⟨⟨by simp, hin, by simpa [List.getLast?_cons_cons] using hc.1.2.2⟩, hc.2⟩

theorem cut_lines (text : Bytes) : Cut (lines text) := by
  induction text with
  | nil => exact cut_nil
  | cons b rest ih =>
      rw [lines_cons]
      split
      · rename_i hb
        subst hb
        exact ih.cons_newline
      · rename_i hb
        exact ih.prepend hb

theorem lines_eq_nil_iff {text : Bytes} : lines text = [] ↔ text = [] := by
  constructor
  · intro h
    rw [← flatten_lines text, h, List.flatten_nil]
  · rintro rfl
    rfl

theorem lines_ne_nil {text : Bytes} (h : text ≠ []) : lines text ≠ [] :=
  mt lines_eq_nil_iff.mp h

/-- Behind a closed text the lines of the rest come as they are. -/
theorem lines_append {a : Bytes} (ha : Closed a) (b : Bytes) :
    lines (a ++ b) = lines a ++ lines b := by
  induction a with
  | nil => simp
  | cons x a ih =>
      rw [List.cons_append, lines_cons, lines_cons]
      cases a with
      | nil =>
          rw [closed_singleton.mp ha]
          simp
      | cons y a =>
          rw [ih (closed_cons_cons.mp ha)]
          obtain ⟨l, ls, hl⟩ := List.exists_cons_of_ne_nil (lines_ne_nil (List.cons_ne_nil y a))
          rw [hl]
          split <;> simp [Source.prepend]

/-- A line without a newline inside is the only line of its text. -/
theorem lines_of_inner {l : Bytes} (hne : l ≠ []) (hin : newline ∉ l.dropLast) :
    lines l = [l] := by
  induction l with
  | nil => exact absurd rfl hne
  | cons b l ih =>
      cases l with
      | nil => rw [lines_cons]; split <;> simp [Source.prepend, *]
      | cons c l =>
          rw [List.dropLast_cons_cons, List.mem_cons, not_or] at hin
          rw [lines_cons, if_neg (Ne.symm hin.1), ih (by simp) hin.2]
          rfl

/-- **A text has one cut.** -/
theorem lines_flatten {ls : List Bytes} (h : Cut ls) : lines ls.flatten = ls := by
  induction ls with
  | nil => rfl
  | cons l ls ih =>
      have hl : lines l = [l] := lines_of_inner (h.ne_nil l (by simp)) (h.inner l (by simp))
      cases ls with
      | nil => simpa using hl
      | cons m ls =>
          obtain ⟨⟨_, _, hend⟩, hrest⟩ := cut_cons_cons.mp h
          have hc : Closed l := by simp [Closed, hend]
          rw [List.flatten_cons, lines_append hc, hl, ih hrest]
          rfl

/-- The lines ahead of another line make a closed text. -/
theorem Cut.closed_flatten {head tail : List Bytes} (h : Cut (head ++ tail)) (ht : tail ≠ []) :
    Closed head.flatten := by
  induction head with
  | nil => simp
  | cons l head ih =>
      have hl : l.getLast? = some newline := by
        apply h.ended l
        rw [List.cons_append, List.dropLast_cons_of_ne_nil (by simp [ht])]
        exact List.mem_cons_self
      rw [List.flatten_cons]
      exact Closed.append (by simp [Closed, hl]) (ih h.tail)

theorem Cut.left {head tail : List Bytes} (h : Cut (head ++ tail)) : Cut head := by
  cases ht : tail with
  | nil => simpa [ht] using h
  | cons m tail' =>
      refine ⟨?_, ?_, ?_⟩
      · exact fun l hl => h.ne_nil l (List.mem_append_left _ hl)
      · exact fun l hl => h.inner l (List.mem_append_left _ hl)
      · intro l hl
        apply h.ended l
        rw [List.dropLast_append_of_ne_nil (by simp [ht])]
        exact List.mem_append_left _ (List.dropLast_subset _ hl)

theorem Cut.right {head tail : List Bytes} (h : Cut (head ++ tail)) : Cut tail := by
  induction head with
  | nil => exact h
  | cons l head ih => exact ih h.tail

/-- A text goes on in new lines if it ends in a newline or nothing comes. -/
theorem lines_append_iff {a : Bytes} {ls : List Bytes} (hc : Cut ls) :
    lines (a ++ ls.flatten) = lines a ++ ls ↔ Closed a ∨ ls = [] := by
  constructor
  · intro h
    by_cases hnil : ls = []
    · exact .inr hnil
    · have hcut : Cut (lines a ++ ls) := h ▸ cut_lines _
      have := hcut.closed_flatten hnil
      rw [flatten_lines] at this
      exact .inl this
  · rintro (ha | rfl)
    · rw [lines_append ha, lines_flatten hc]
    · simp

/-- **The lines of a text are the only cut of it, and two texts are cut one by one where they meet
at the end of a line.**  At any other place the open last line of the first takes the first line of
the second, if there is one. -/
theorem unique_cut :
    (∀ text ls, lines text = ls ↔ Cut ls ∧ ls.flatten = text) ∧
      ∀ a b, lines (a ++ b) = lines a ++ lines b ↔ Closed a ∨ b = [] := by
  refine ⟨fun text ls => ⟨?_, ?_⟩, fun a b => ?_⟩
  · rintro rfl
    exact ⟨cut_lines text, flatten_lines text⟩
  · rintro ⟨h, rfl⟩
    exact lines_flatten h
  · have h := lines_append_iff (a := a) (cut_lines b)
    rwa [flatten_lines, lines_eq_nil_iff] at h

/-- A carriage return is part of its line, an empty line is its newline, and the last line may be
open. -/
example : lines (utf8 "a\r\n\nb") = [utf8 "a\r\n", utf8 "\n", utf8 "b"] := by decide +kernel

/-! ### Words in lines -/

/-- A word at the start of a text stands at the start of its first line. -/
theorem prefix_of_lines {word text : Bytes} (hne : word ≠ []) (hin : newline ∉ word.dropLast)
    (h : word <+: text) : ∃ line more, lines text = line :: more ∧ word <+: line := by
  induction word generalizing text with
  | nil => exact absurd rfl hne
  | cons c word ih =>
      obtain ⟨rest, rfl⟩ := h
      rw [List.cons_append, lines_cons]
      cases word with
      | nil =>
          split
          · exact ⟨_, _, rfl, List.prefix_rfl⟩
          · cases h : lines ([] ++ rest) with
            | nil => exact ⟨[c], [], by simp [Source.prepend], List.prefix_rfl⟩
            | cons line more => exact ⟨c :: line, more, rfl, by simp⟩
      | cons d word =>
          rw [List.dropLast_cons_cons, List.mem_cons, not_or] at hin
          obtain ⟨line, more, hl, hp⟩ := ih (by simp) hin.2 (List.prefix_append _ rest)
          rw [if_neg (Ne.symm hin.1), hl]
          exact ⟨c :: line, more, rfl, List.cons_prefix_cons.mpr ⟨rfl, hp⟩⟩

theorem exists_mem_lines {word text : Bytes} (hne : word ≠ []) (hin : newline ∉ word.dropLast)
    (h : word <:+: text) : ∃ line ∈ lines text, word <:+: line := by
  induction text with
  | nil => exact absurd (List.infix_nil.mp h) hne
  | cons b rest ih =>
      rcases List.infix_cons_iff.mp h with h | h
      · obtain ⟨line, more, hl, hp⟩ := prefix_of_lines hne hin h
        exact ⟨line, by rw [hl]; exact List.mem_cons_self, hp.isInfix⟩
      · obtain ⟨line, hmem, hi⟩ := ih h
        rw [lines_cons]
        split
        · exact ⟨line, List.mem_cons_of_mem _ hmem, hi⟩
        · -- only the first line of the rest has changed: `b` stands in front of it
          cases hl : lines rest with
          | nil => rw [hl] at hmem; cases hmem
          | cons first more =>
              rw [hl] at hmem
              rcases List.mem_cons.mp hmem with rfl | hmem
              · exact ⟨b :: line, List.mem_cons_self, hi.trans (List.infix_cons List.infix_rfl)⟩
              · exact ⟨line, List.mem_cons_of_mem _ hmem, hi⟩

/-- A newline inside a piece of a line ends it. -/
theorem newline_notMem_of_piece {word line : Bytes} (hin : newline ∉ line.dropLast)
    (h : word <:+: line) : newline ∉ word.dropLast := by
  obtain ⟨s, t, rfl⟩ := h
  intro hmem
  apply hin
  have hne : word ++ t ≠ [] := by
    intro e
    rw [(List.append_eq_nil_iff.mp e).1] at hmem
    cases hmem
  rw [List.append_assoc, List.dropLast_append_of_ne_nil hne]
  refine List.mem_append_right _ ?_
  cases t with
  | nil => simpa using hmem
  | cons c t =>
      rw [List.dropLast_append_of_ne_nil (by simp)]
      exact List.mem_append_left _ (List.dropLast_subset _ hmem)

/-- **Looking through the lines is looking through the text**, for a word that does not reach over
the end of a line. -/
theorem exists_mem_lines_iff {word text : Bytes} (hne : word ≠ []) :
    (∃ line ∈ lines text, word <:+: line) ↔ word <:+: text ∧ newline ∉ word.dropLast := by
  constructor
  · rintro ⟨line, hmem, h⟩
    refine ⟨?_, newline_notMem_of_piece ((cut_lines text).inner line hmem) h⟩
    have hflat := List.infix_of_mem_flatten hmem
    rw [flatten_lines] at hflat
    exact h.trans hflat
  · rintro ⟨h, hin⟩
    exact exists_mem_lines hne hin h

theorem isMarked_iff_occurs {text marker : Bytes} :
    isMarked text marker = true ↔ marker <:+: text ∧ newline ∉ marker.dropLast := by
  rw [isMarked_iff]
  by_cases hne : marker = []
  · simp [hne]
  · simp only [hne, false_or, exists_mem_lines_iff hne]

end StubInsertion.Source
