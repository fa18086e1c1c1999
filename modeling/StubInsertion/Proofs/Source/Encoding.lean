import StubInsertion.Proofs.Source.Layout
import StubInsertion.Proofs.Text.Validity

/-! # Blocks and encodings

A text is cut between two lines only, and no character has a newline inside: so the bytes of a
character are never parted, and bytes that make no character are not completed by those of a block.
A text with a valid block in it is valid if and only if the text was (`isValid_splice_iff`). -/

namespace StubInsertion

theorem Block.isValid_bytes (b : Block) : Utf8.isValid b.bytes = true :=
  Utf8.isValid_iff.mpr ⟨b.text, rfl⟩

namespace Source

open Utf8

/-- The newlines ahead of a block change nothing. -/
theorem isValid_append_separator {head tail : List Bytes} (hc : Cut (head ++ tail)) :
    (isValid (head.flatten ++ separator head tail) && isValid tail.flatten) =
      isValid (head ++ tail).flatten := by
  rw [List.flatten_append]
  by_cases ht : tail = []
  · subst ht
    have hnl : isValid (head.flatten ++ separator head []) = isValid head.flatten := by
      rw [separator_nil]
      split
      · rw [List.append_cons, isValid_concat_newline, isValid_concat_newline]
      · rw [isValid_concat_newline]
    rw [hnl, List.flatten_nil, List.append_nil]
    exact Bool.and_true _
  · rw [separator_of_ne_nil hc ht, List.append_nil,
      isValid_append_of_closed (hc.closed_flatten ht)]

/-- The bytes ahead of the block are closed and the block is valid, so the three parts are read one
by one. -/
theorem isValid_splice {block : Bytes} (hb : isValid block = true) (text : Bytes) (n : Nat) :
    isValid (splice (lines text) n block) = isValid text := by
  have hcut : Cut ((lines text).take (n - 1) ++ (lines text).drop (n - 1)) := by
    rw [List.take_append_drop]
    exact cut_lines text
  unfold splice
  simp only []
  rw [List.append_assoc, isValid_append_of_closed (closed_append_separator _ _),
    isValid_append_of_isValid hb, isValid_append_separator hcut, List.take_append_drop,
    flatten_lines]

/-- **Validity is kept both ways.**  A valid block leaves a valid text valid and an invalid one
invalid, whatever line it goes to; so does the block of every plan. -/
theorem isValid_splice_iff (text : Bytes) :
    (∀ (block : Bytes) (n : Nat), isValid block = true →
      (isValid (splice (lines text) n block) = true ↔ isValid text = true)) ∧
    ∀ (b : Block) (line : Nat) (contents : Bytes), plan text b = .insert line contents →
      (isValid contents = true ↔ isValid text = true) := by
  constructor
  · intro block n hb
    rw [isValid_splice hb]
  · intro b line contents h
    obtain ⟨-, rfl⟩ := line_of_plan h
    rw [isValid_splice b.isValid_bytes]

/-- A comment that ends in the first byte of a character: neither the second byte of that character
at the start of a block nor a block from a plan completes it. -/
theorem isValid_splice_iff_cut_off :
    isValid (utf8 "é") = true ∧
      (isValid (splice (lines [0x23, 0xc3]) 2 (utf8 "é")) = true ↔ isValid [0x23, 0xc3] = true) ∧
      plan [0x23, 0xc3] Block.short = .insert 2 [0x23, 0xc3, newline, newline, 0x4d, newline] ∧
      (isValid [0x23, 0xc3, newline, newline, 0x4d, newline] = true ↔
        isValid [0x23, 0xc3] = true) := by
  have hblock : isValid (utf8 "é") = true := by decide +kernel
  have hplan : plan [0x23, 0xc3] Block.short =
      .insert 2 [0x23, 0xc3, newline, newline, 0x4d, newline] := by decide +kernel
  exact ⟨hblock, (isValid_splice_iff _).1 _ 2 hblock, hplan,
    (isValid_splice_iff _).2 Block.short 2 _ hplan⟩

end Source

end StubInsertion
