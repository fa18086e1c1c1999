import Mathlib.Data.List.Infix
import Mathlib.Data.List.TakeWhile
import StubInsertion.Source.Line

/-! # Taking lines apart

The kind of a line is found by skipping runs of white space.  Here each kind is a way to take the
line apart, whatever bytes it holds.

* **Parts.** `isComment_iff` and `afterDirective?_eq_some_iff` say what a comment and a directive
  are made of; skipping as much white space as there is loses nothing.
* **Ends.** White space behind a line does not change its kind (`LineKind.of_append`), so neither
  does any line terminator.
* **One kind.** The first byte that is no white space tells the kinds apart (`count_kinds_le_one`),
  so it does not matter which of them is tried first (`LineKind.firstOf_eq`).  `kinds_of_grammar`
  says all of this in terms of bytes. -/

namespace StubInsertion.Source

/-- Nothing but white space. -/
def Spaces (w : Bytes) : Prop := ∀ b ∈ w, isSpace b = true

theorem isBlank_iff {line : Bytes} : isBlank line = true ↔ Spaces line := List.all_eq_true

instance (w : Bytes) : Decidable (Spaces w) := decidable_of_iff _ isBlank_iff

/-- The bytes of white space: tab, newline, vertical tab, form feed, carriage return and space. -/
def spaceBytes : Bytes := [0x09, 0x0a, 0x0b, 0x0c, 0x0d, 0x20]

theorem isSpace_iff {b : UInt8} : isSpace b = true ↔ b ∈ spaceBytes := by
  simp [isSpace, spaceBytes, or_assoc]

theorem spaces_iff {w : Bytes} : Spaces w ↔ w ⊆ spaceBytes :=
  forall₂_congr fun _ _ => isSpace_iff

/-! ### Runs of white space -/

/-- White space goes as far as it can. -/
theorem skipSpace_append {w rest : Bytes} (hw : Spaces w)
    (hrest : ∀ b ∈ rest.head?, isSpace b = false) : skipSpace (w ++ rest) = rest := by
  unfold skipSpace
  rw [List.dropWhile_append_of_pos hw]
  cases rest with
  | nil => rfl
  | cons b rest => exact List.dropWhile_cons_of_neg (by simp [hrest b rfl])

/-- What white space was skipped. -/
theorem exists_skipSpace (line : Bytes) : ∃ w, Spaces w ∧ line = w ++ skipSpace line ∧
    ∀ b ∈ (skipSpace line).head?, isSpace b = false := by
  refine ⟨line.takeWhile isSpace, ?_, List.takeWhile_append_dropWhile.symm, ?_⟩
  · intro b hb
    exact List.mem_takeWhile_imp hb
  · intro b hb
    have h := List.head?_dropWhile_not isSpace line
    rwa [← skipSpace, Option.mem_def.mp hb] at h

theorem skipSomeSpace?_append {w rest : Bytes} (hne : w ≠ []) (hw : Spaces w)
    (hrest : ∀ b ∈ rest.head?, isSpace b = false) : skipSomeSpace? (w ++ rest) = some rest := by
  obtain ⟨b, w, rfl⟩ := List.exists_cons_of_ne_nil hne
  rw [List.cons_append, skipSomeSpace?, if_pos (hw b List.mem_cons_self),
    skipSpace_append (fun c hc => hw c (List.mem_cons_of_mem b hc)) hrest]

theorem exists_of_skipSomeSpace? {line rest : Bytes} (h : skipSomeSpace? line = some rest) :
    ∃ w, w ≠ [] ∧ Spaces w ∧ line = w ++ rest := by
  cases line with
  | nil => cases h
  | cons b line =>
      rw [skipSomeSpace?] at h
      split at h
      · rename_i hb
        obtain ⟨w, hw, hline, -⟩ := exists_skipSpace line
        obtain rfl := Option.some.inj h
        exact ⟨b :: w, by simp, List.forall_mem_cons.mpr ⟨hb, hw⟩, congrArg (b :: ·) hline⟩
      · cases h

/-! ### Comments and directives -/

/-- A comment is white space, a number sign, and anything. -/
theorem isComment_iff {line : Bytes} :
    isComment line = true ↔ ∃ w rest, Spaces w ∧ line = w ++ 0x23 :: rest := by
  rw [isComment, decide_eq_true_iff]
  constructor
  · intro h
    obtain ⟨w, hw, hline, -⟩ := exists_skipSpace line
    obtain ⟨rest, hrest⟩ := List.head?_eq_some_iff.mp h
    exact ⟨w, rest, hw, hrest ▸ hline⟩
  · rintro ⟨w, rest, hw, rfl⟩
    rw [skipSpace_append hw (by rintro b ⟨⟩; rfl)]
    rfl

/-- The words of a directive, with the white space between them. -/
def directiveWords (v w : Bytes) : Bytes :=
  utf8 "from" ++ v ++ utf8 "__future__" ++ w ++ utf8 "import"

/-- A directive is its three words, with white space between them, and anything. -/
theorem afterDirective?_eq_some_iff {line rest : Bytes} : afterDirective? line = some rest ↔
    ∃ v w, v ≠ [] ∧ Spaces v ∧ w ≠ [] ∧ Spaces w ∧ line = directiveWords v w ++ rest := by
  unfold afterDirective? directiveWords
  constructor
  · intro h
    obtain ⟨l₁, h₁, h⟩ := Option.bind_eq_some_iff.mp h
    obtain ⟨l₂, h₂, h⟩ := Option.bind_eq_some_iff.mp h
    obtain ⟨l₃, h₃, h⟩ := Option.bind_eq_some_iff.mp h
    obtain ⟨l₄, h₄, h₅⟩ := Option.bind_eq_some_iff.mp h
    obtain ⟨v, hv, hvs, rfl⟩ := exists_of_skipSomeSpace? h₂
    obtain ⟨w, hw, hws, rfl⟩ := exists_of_skipSomeSpace? h₄
    refine ⟨v, w, hv, hvs, hw, hws, ?_⟩
    rw [Bytes.after?_eq_some_iff.mp h₁, Bytes.after?_eq_some_iff.mp h₃,
      Bytes.after?_eq_some_iff.mp h₅]
    simp only [List.append_assoc]
  · rintro ⟨v, w, hv, hvs, hw, hws, rfl⟩
    simp only [List.append_assoc, Option.bind_eq_bind]
    rw [Bytes.after?_eq_some_iff.mpr rfl, Option.bind_some,
      skipSomeSpace?_append hv hvs (by rintro b ⟨⟩; rfl), Option.bind_some,
      Bytes.after?_eq_some_iff.mpr rfl, Option.bind_some,
      skipSomeSpace?_append hw hws (by rintro b ⟨⟩; rfl), Option.bind_some,
      Bytes.after?_eq_some_iff.mpr rfl]

theorem isDirective_iff {line : Bytes} : isDirective line = true ↔
    ∃ v w, v ≠ [] ∧ Spaces v ∧ w ≠ [] ∧ Spaces w ∧ directiveWords v w <+: line := by
  rw [isDirective, Option.isSome_iff_exists]
  simp only [afterDirective?_eq_some_iff]
  constructor
  · rintro ⟨rest, v, w, hv, hvs, hw, hws, rfl⟩
    exact ⟨v, w, hv, hvs, hw, hws, List.prefix_append ..⟩
  · rintro ⟨v, w, hv, hvs, hw, hws, rest, rfl⟩
    exact ⟨rest, v, w, hv, hvs, hw, hws, rfl⟩

/-! ### White space behind a line -/

/-- What does not end in white space does not reach into the white space behind a line. -/
theorem prefix_of_prefix_append {p line w : Bytes} (hp : ∀ b ∈ p.getLast?, isSpace b = false)
    (hw : Spaces w) (h : p <+: line ++ w) : p <+: line := by
  rcases List.prefix_or_prefix_of_prefix h (List.prefix_append line w) with h' | ⟨t, rfl⟩
  · exact h'
  · have ht : t <+: w := (List.prefix_append_right_inj line).mp h
    rcases List.eq_nil_or_concat t with rfl | ⟨t, b, rfl⟩
    · simp
    · have hb : isSpace b = true := hw b (ht.subset (by simp))
      have := hp b (by simp)
      rw [hb] at this
      cases this

theorem isBlank_append {w : Bytes} (line : Bytes) (hw : Spaces w) :
    isBlank (line ++ w) = isBlank line := by
  have hblank : isBlank w = true := isBlank_iff.mpr hw
  unfold isBlank at *
  rw [List.all_append, hblank, Bool.and_true]

theorem isComment_append {w : Bytes} (line : Bytes) (hw : Spaces w) :
    isComment (line ++ w) = isComment line := by
  unfold isComment skipSpace
  rw [List.dropWhile_append]
  split
  · rename_i hline
    rw [List.isEmpty_iff.mp hline, (List.dropWhile_eq_nil_iff (p := isSpace)).mpr hw]
  · rename_i hline
    obtain ⟨b, rest, h⟩ := List.exists_cons_of_ne_nil (mt List.isEmpty_iff.mpr hline)
    rw [h]
    rfl

theorem isDirective_append {w : Bytes} (line : Bytes) (hw : Spaces w) :
    isDirective (line ++ w) = isDirective line := by
  rw [Bool.eq_iff_iff, isDirective_iff, isDirective_iff]
  constructor
  · rintro ⟨u, v, hu, hus, hv, hvs, h⟩
    refine ⟨u, v, hu, hus, hv, hvs, prefix_of_prefix_append ?_ hw h⟩
    -- the last word ends in a letter
    intro b hb
    rw [directiveWords, List.getLast?_append] at hb
    cases hb
    rfl
  · rintro ⟨u, v, hu, hus, hv, hvs, h⟩
    exact ⟨u, v, hu, hus, hv, hvs, h.trans (List.prefix_append line w)⟩

/-- **The kind of a line does not depend on the white space at its end.** -/
theorem LineKind.of_append {w : Bytes} (line : Bytes) (hw : Spaces w) :
    LineKind.of (line ++ w) = LineKind.of line := by
  unfold LineKind.of
  rw [isBlank_append line hw, isComment_append line hw, isDirective_append line hw]

/-! ### One kind at most -/

/-- A blank line is skipped to its end. -/
theorem head?_skipSpace_of_isBlank (line : Bytes) (h : isBlank line = true) :
    (skipSpace line).head? = none := by
  rw [skipSpace, List.dropWhile_eq_nil_iff.mpr (isBlank_iff.mp h), List.head?_nil]

theorem head?_skipSpace_of_isComment (line : Bytes) (h : isComment line = true) :
    (skipSpace line).head? = some 0x23 := of_decide_eq_true h

/-- A directive starts with the first letter of `from`. -/
theorem head?_skipSpace_of_isDirective (line : Bytes) (h : isDirective line = true) :
    (skipSpace line).head? = some 0x66 := by
  obtain ⟨v, w, -, -, -, -, rest, rfl⟩ := isDirective_iff.mp h
  rfl

/-- **No line is of two kinds.** -/
theorem count_kinds_le_one (line : Bytes) :
    [isBlank line, isComment line, isDirective line].count true ≤ 1 := by
  have hblank := head?_skipSpace_of_isBlank line
  have hcomment := head?_skipSpace_of_isComment line
  have hdirective := head?_skipSpace_of_isDirective line
  cases hb : isBlank line <;> cases hc : isComment line <;> cases hd : isDirective line <;>
    simp_all

namespace LineKind

/-- Is the line of the kind, as far as this kind alone is asked about? -/
def fits : LineKind → Bytes → Bool
  | .blank => isBlank
  | .comment => isComment
  | .directive => isDirective
  | .code => fun line => !(isBlank line || isComment line || isDirective line)

/-- The first of some kinds that the line fits; code if it fits none of them. -/
def firstOf (order : List LineKind) (line : Bytes) : LineKind :=
  (order.find? fun kind => kind.fits line).getD .code

theorem of_eq_iff {line : Bytes} {kind : LineKind} :
    LineKind.of line = kind ↔ kind.fits line = true := by
  have h := count_kinds_le_one line
  unfold LineKind.of
  cases hb : isBlank line <;> cases hc : isComment line <;> cases hd : isDirective line <;>
    cases kind <;> simp_all [fits]

/-- The kind of a line is found in whatever order the kinds are tried. -/
theorem firstOf_eq {order : List LineKind} (h : ∀ kind, kind ≠ .code → kind ∈ order)
    (line : Bytes) : firstOf order line = LineKind.of line := by
  unfold firstOf
  cases hfind : order.find? fun kind => kind.fits line with
  | some kind =>
      have hfits := List.find?_some (p := fun kind : LineKind => kind.fits line) hfind
      exact (of_eq_iff.mpr hfits).symm
  | none =>
      by_contra hne
      have hmem : LineKind.of line ∈ order := h _ (Ne.symm hne)
      exact List.find?_eq_none.mp hfind _ hmem (of_eq_iff.mp rfl)

end LineKind

/-- **The kinds of lines have these grammars.**  They exclude one another, so the order in which
they are tried decides nothing, and white space behind a line plays no part. -/
theorem kinds_of_grammar (line : Bytes) :
    (isBlank line = true ↔ line ⊆ spaceBytes) ∧
    (isComment line = true ↔ ∃ w rest, w ⊆ spaceBytes ∧ line = w ++ utf8 "#" ++ rest) ∧
    (isDirective line = true ↔ ∃ v w rest, v ≠ [] ∧ v ⊆ spaceBytes ∧ w ≠ [] ∧ w ⊆ spaceBytes ∧
      line = utf8 "from" ++ v ++ utf8 "__future__" ++ w ++ utf8 "import" ++ rest) ∧
    [isBlank line, isComment line, isDirective line].count true ≤ 1 ∧
    (∀ order : List LineKind, (∀ kind, kind ≠ .code → kind ∈ order) →
      LineKind.firstOf order line = LineKind.of line) ∧
    ∀ w, w ⊆ spaceBytes → LineKind.of (line ++ w) = LineKind.of line := by
  have hsharp (w rest : Bytes) : w ++ 0x23 :: rest = w ++ utf8 "#" ++ rest :=
    (List.append_assoc w (utf8 "#") rest).symm
  refine ⟨isBlank_iff.trans spaces_iff, ?_, ?_, count_kinds_le_one line,
    fun order h => LineKind.firstOf_eq h line, fun w hw => LineKind.of_append line (spaces_iff.mpr hw)⟩
  · simp only [isComment_iff, spaces_iff, hsharp]
  · rw [isDirective_iff]
    simp only [spaces_iff]
    constructor
    · rintro ⟨v, w, hv, hvs, hw, hws, rest, rfl⟩
      exact ⟨v, w, rest, hv, hvs, hw, hws, rfl⟩
    · rintro ⟨v, w, rest, hv, hvs, hw, hws, rfl⟩
      exact ⟨v, w, hv, hvs, hw, hws, rest, rfl⟩

/-- A directive with a line end behind it, and the kinds tried from the last one on. -/
theorem kinds_of_grammar_directive :
    LineKind.firstOf [.directive, .comment, .blank] (utf8 "from  __future__\timport x") =
        LineKind.of (utf8 "from  __future__\timport x") ∧
      (∀ kind, kind ≠ .code → kind ∈ [LineKind.directive, .comment, .blank]) ∧
      [0x0d, 0x0a] ⊆ spaceBytes ∧
      LineKind.of (utf8 "from  __future__\timport x" ++ [0x0d, 0x0a]) =
        LineKind.of (utf8 "from  __future__\timport x") := by
  have horder : ∀ kind, kind ≠ .code → kind ∈ [LineKind.directive, .comment, .blank] := by
    rintro (_ | _ | _ | _) h <;> simp_all
  have hspaces : [0x0d, 0x0a] ⊆ spaceBytes := by decide
  obtain ⟨-, -, -, -, hfirst, hbehind⟩ := kinds_of_grammar (utf8 "from  __future__\timport x")
  exact ⟨hfirst _ horder, horder, hspaces, hbehind _ hspaces⟩

end StubInsertion.Source
