import StubInsertion.Proofs.Source.Marks

/-! # Recognising a marker

A marker is looked for in three ways: line by line in a text that is to be changed, byte by byte in
the text of a block, and character by character by whoever reads the two.

* **Characters.** The first byte of a character occurs inside no other character, so the encoding of
  a string stands in that of another one if and only if the string stands in the other one
  (`utf8_infix_iff`).
* **Agreement.** `isMarked_iff_search` says what a scan by lines finds of any marker, and that for a
  marker on a single line the three ways agree. -/

namespace StubInsertion

/-! ### Characters in bytes -/

/-- A character is read back from its bytes, whatever follows them. -/
theorem utf8EncodeChar_append_inj {c d : Char} {s t : Bytes}
    (h : String.utf8EncodeChar c ++ s = String.utf8EncodeChar d ++ t) : c = d ∧ s = t := by
  have hc := ByteArray.utf8DecodeChar?_utf8EncodeChar_append (b := s.toByteArray) (c := c)
  have hd := ByteArray.utf8DecodeChar?_utf8EncodeChar_append (b := t.toByteArray) (c := d)
  rw [← List.toByteArray_append, h, List.toByteArray_append, hd, Option.some.injEq] at hc
  subst hc
  exact ⟨rfl, List.append_cancel_left h⟩

/-- The bytes of a character: one that starts a character, and others that start none. -/
theorem utf8EncodeChar_eq_cons (c : Char) : ∃ first more, String.utf8EncodeChar c = first :: more ∧
    first.IsUTF8FirstByte ∧ ∀ b ∈ more, ¬ b.IsUTF8FirstByte := by
  have hpos : 0 < (String.utf8EncodeChar c).length := by
    rw [String.length_utf8EncodeChar]
    exact c.utf8Size_pos
  have hfirst (i : Nat) (hi : i < (String.utf8EncodeChar c).length) :
      (String.utf8EncodeChar c)[i].IsUTF8FirstByte ↔ i = 0 :=
    UInt8.isUTF8FirstByte_getElem_utf8EncodeChar
  cases hc : String.utf8EncodeChar c with
  | nil => simp [hc] at hpos
  | cons first more =>
      simp only [hc] at hfirst
      refine ⟨first, more, rfl, (hfirst 0 (by simp)).mpr rfl, fun b hb => ?_⟩
      obtain ⟨i, hi, rfl⟩ := List.getElem_of_mem hb
      intro h
      have := (hfirst (i + 1) (by simpa using hi)).mp (by simpa using h)
      omega

/-- What starts with the first byte of a character does not begin inside another one. -/
theorem infix_of_infix_append {first : UInt8} {word more text : Bytes} (hf : first.IsUTF8FirstByte)
    (hmore : ∀ b ∈ more, ¬ b.IsUTF8FirstByte) (h : first :: word <:+: more ++ text) :
    first :: word <:+: text := by
  induction more with
  | nil => exact h
  | cons b more ih =>
      rcases List.infix_cons_iff.mp h with h | h
      · rw [(List.cons_prefix_cons.mp h).1] at hf
        exact absurd hf (hmore b List.mem_cons_self)
      · exact ih (fun b hb => hmore b (List.mem_cons_of_mem _ hb)) h

theorem prefix_of_flatMap_utf8 {word text : List Char}
    (h : word.flatMap String.utf8EncodeChar <+: text.flatMap String.utf8EncodeChar) :
    word <+: text := by
  induction word generalizing text with
  | nil => exact List.nil_prefix
  | cons d word ih =>
      cases text with
      | nil =>
          obtain ⟨first, more, hd, -⟩ := utf8EncodeChar_eq_cons d
          simp [hd] at h
      | cons c text =>
          rw [List.flatMap_cons, List.flatMap_cons] at h
          obtain ⟨rest, h⟩ := h
          rw [List.append_assoc] at h
          obtain ⟨rfl, hrest⟩ := utf8EncodeChar_append_inj h
          exact List.cons_prefix_cons.mpr ⟨rfl, ih ⟨rest, hrest⟩⟩

theorem infix_of_flatMap_utf8 {word text : List Char}
    (h : word.flatMap String.utf8EncodeChar <:+: text.flatMap String.utf8EncodeChar) :
    word <:+: text := by
  cases word with
  | nil => exact List.nil_infix
  | cons d word =>
      obtain ⟨first, rest, hd, hfirst, -⟩ := utf8EncodeChar_eq_cons d
      induction text with
      | nil => simp [hd] at h
      | cons c text ih =>
          obtain ⟨b, more, hc, -, hmore⟩ := utf8EncodeChar_eq_cons c
          rw [List.flatMap_cons, List.flatMap_cons, hc, hd, List.cons_append, List.cons_append,
            List.infix_cons_iff] at h
          rcases h with h | h
          · refine List.IsPrefix.isInfix (prefix_of_flatMap_utf8 ?_)
            rwa [List.flatMap_cons, List.flatMap_cons, hc, hd]
          · refine List.infix_cons (ih ?_)
            rw [List.flatMap_cons, hd]
            exact infix_of_infix_append hfirst hmore h

/-- **A string stands in another one if and only if its bytes do.** -/
theorem utf8_infix_iff {word text : String} :
    utf8 word <:+: utf8 text ↔ word.toList <:+: text.toList := by
  refine ⟨infix_of_flatMap_utf8, ?_⟩
  rintro ⟨ahead, behind, h⟩
  refine ⟨ahead.flatMap String.utf8EncodeChar, behind.flatMap String.utf8EncodeChar, ?_⟩
  unfold utf8
  rw [← List.flatMap_append, ← List.flatMap_append, h]

/-! ### Markers -/

/-- A marker and a text make a block if the marker may be one and the text carries it. -/
theorem Block.exists_make_eq_ok_iff {marker text : String} :
    (∃ b, Block.make marker text = .ok b) ↔ Text.isBlank marker = false ∧
      hasLineBreak marker = false ∧ (Pattern.of (utf8 marker)).occursIn (utf8 text) = true := by
  unfold Block.make
  split
  · simp_all
  · split
    · simp_all
    · split <;> simp_all

/-- A block is made of its own marker and text, and of no others. -/
theorem Block.make_eq_ok_iff {marker text : String} {b : Block} :
    Block.make marker text = .ok b ↔ b.marker = marker ∧ b.text = text := by
  have hparts {marker text : String} {b : Block} (h : Block.make marker text = .ok b) :
      b.marker = marker ∧ b.text = text := by
    unfold Block.make at h
    split at h
    · cases h
    · split at h
      · cases h
      · split at h
        · cases h
          exact ⟨rfl, rfl⟩
        · cases h
  refine ⟨hparts, ?_⟩
  rintro ⟨rfl, rfl⟩
  have hcarried : (Pattern.of (utf8 b.marker)).occursIn (utf8 b.text) = true := by
    rw [Pattern.occursIn_of]
    exact b.marker_in_text
  obtain ⟨b', hb'⟩ := Block.exists_make_eq_ok_iff.mpr
    ⟨b.marker_not_blank, b.marker_one_line, hcarried⟩
  obtain ⟨hmarker, htext⟩ := hparts hb'
  cases b
  cases b'
  cases hmarker
  cases htext
  exact hb'

theorem Block.marker_of_make {marker text : String} {b : Block}
    (h : Block.make marker text = .ok b) : b.marker = marker := (Block.make_eq_ok_iff.mp h).1

namespace Source

/-- **Looking for a marker line by line finds what looking through the whole text finds**, except
for a marker that goes on behind the end of a line.  So the scan of a text that is to be changed and
the check of the text of a block agree on every marker that a block may have, and both find the
marker where its characters stand in one piece. -/
theorem isMarked_iff_search (marker : String) :
    (∀ text : Bytes, isMarked text (utf8 marker) = true ↔
      utf8 marker <:+: text ∧ newline ∉ (utf8 marker).dropLast) ∧
    ∀ b s, Block.make marker s = .ok b → ∀ text : String,
      isMarked (utf8 text) (utf8 marker) = (Pattern.of (utf8 marker)).occursIn (utf8 text) ∧
      (isMarked (utf8 text) (utf8 marker) = true ↔ ∃ b', Block.make marker text = .ok b') ∧
      (isMarked (utf8 text) (utf8 marker) = true ↔ marker.toList <:+: text.toList) := by
  refine ⟨fun text => isMarked_iff_occurs, fun b s hb text => ?_⟩
  obtain rfl : b.marker = marker := Block.marker_of_make hb
  have hscan : isMarked (utf8 text) (utf8 b.marker) = true ↔ utf8 b.marker <:+: utf8 text :=
    b.isMarked_mark_iff
  have hsearch : (Pattern.of (utf8 b.marker)).occursIn (utf8 text) = true ↔
      utf8 b.marker <:+: utf8 text := by
    rw [Pattern.occursIn_of, Bytes.occursIn_iff]
  refine ⟨?_, ?_, ?_⟩
  · rw [Bool.eq_iff_iff, hscan, hsearch]
  · rw [Block.exists_make_eq_ok_iff, hscan, hsearch]
    exact ⟨fun h => ⟨b.marker_not_blank, b.marker_one_line, h⟩, fun h => h.2.2⟩
  · rw [hscan, utf8_infix_iff]

/-- The marker of the short block, in a text without a newline. -/
theorem isMarked_iff_search_short :
    Block.make "M" "M\n" = .ok Block.short ∧
      isMarked (utf8 "# M") (utf8 "M") = (Pattern.of (utf8 "M")).occursIn (utf8 "# M") ∧
      (isMarked (utf8 "# M") (utf8 "M") = true ↔ ∃ b', Block.make "M" "# M" = .ok b') ∧
      (isMarked (utf8 "# M") (utf8 "M") = true ↔ "M".toList <:+: "# M".toList) := by
  have h : Block.make "M" "M\n" = .ok Block.short := rfl
  exact ⟨h, (isMarked_iff_search "M").2 Block.short "M\n" h "# M"⟩

/-- A marker that goes on behind the end of a line is in no line. -/
example : isMarked (utf8 "A\nB") (utf8 "A\n") = true ∧
    isMarked (utf8 "A\nB") (utf8 "A\nB") = false := by decide +kernel

end Source

end StubInsertion
