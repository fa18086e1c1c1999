import Mathlib.Algebra.Group.Nat.Defs
import StubInsertion.Files.Path
import StubInsertion.Proofs.Source.Marks

/-! # Line breaks in shown bytes

Bytes that are shown have as many line breaks as they hold newlines: decoding takes a newline for
the line break that it is, wherever it stands, and takes nothing else for one (`count_display`).
The machine keeps this up because its states are sound (`State.Sound`): inside a character no byte
of ASCII is accepted, and no character of ASCII is completed. -/

namespace StubInsertion

/-! ### Encoding -/

theorem count_newline_utf8EncodeChar (c : Char) :
    (String.utf8EncodeChar c).count newline = if c = '\n' then 1 else 0 := by
  by_cases hc : c = '\n'
  · subst hc
    decide
  · rw [if_neg hc]
    exact List.count_eq_zero.mpr fun h => hc (newline_mem_utf8EncodeChar h)

theorem count_newline_utf8 (s : String) : (utf8 s).count newline = s.toList.count '\n' := by
  unfold utf8
  induction s.toList with
  | nil => rfl
  | cons c cs ih =>
      rw [List.flatMap_cons, List.count_append, count_newline_utf8EncodeChar, ih, List.count_cons]
      simp [Nat.add_comm]

namespace Utf8

/-! ### Decoding -/

/-- Inside a character every byte that is accepted is above those of ASCII, and so will be the
character. -/
def State.Sound : State → Prop
  | .rest => True
  | .inside needed low _ value =>
    0x80 ≤ low.toNat ∧ 0x80 ≤ (value * 64 + (low.toNat - 0x80)) * 64 ^ needed

/-- The line breaks that a byte completes. -/
def Reading.breaks (r : Reading) : Nat := r.done.toList.count '\n'

theorem ofNat_ne_lineBreak {n : Nat} (h : n ≠ 10) : Char.ofNat n ≠ '\n' := by
  by_cases hvalid : n.isValidChar
  · rw [Char.ofNat, dif_pos hvalid]
    exact fun heq => h (congrArg Char.toNat heq)
  · rw [Char.ofNat, dif_neg hvalid]
    decide

theorem breaks_of_ne {next : State} {n : Nat} (h : n ≠ 10) :
    Reading.breaks ⟨next, some (Char.ofNat n)⟩ = 0 := by
  simp [Reading.breaks, List.count_eq_zero, Ne.symm (ofNat_ne_lineBreak h)]

theorem sound_start {b : UInt8} {r : Reading} (h : start b = some r) :
    r.next.Sound ∧ r.breaks = if b = newline then 1 else 0 := by
  have hb : b = newline ↔ b.toNat = 10 := UInt8.toNat_inj.symm
  unfold start at h
  dsimp only at h
  split at h
  · cases h
    refine ⟨trivial, ?_⟩
    split
    · rename_i heq
      subst heq
      decide
    · rename_i hne
      exact breaks_of_ne fun heq => hne (hb.mpr heq)
  · -- no byte above those of ASCII is a newline, and none completes a character
    have hne : b ≠ newline := fun heq => by
      have := hb.mp heq
      omega
    rw [if_neg hne]
    split_ifs at h <;> cases h <;> refine ⟨?_, rfl⟩ <;>
      simp only [State.Sound, UInt8.reduceToNat] <;> omega

theorem sound_step {s : State} {b : UInt8} {r : Reading} (hs : s.Sound) (h : step s b = some r) :
    r.next.Sound ∧ r.breaks = if b = newline then 1 else 0 := by
  cases s with
  | rest => exact sound_start h
  | inside needed low high value =>
      obtain ⟨hlow, hvalue⟩ := hs
      by_cases hbounds : low ≤ b ∧ b ≤ high
      · have hb : low.toNat ≤ b.toNat := hbounds.1
        have hne : b ≠ newline := by
          rintro rfl
          have : newline.toNat = 10 := rfl
          omega
        rw [if_neg hne]
        have hmore : 0x80 ≤ (value * 64 + (b.toNat - 0x80)) * 64 ^ needed := by
          refine Nat.le_trans hvalue (Nat.mul_le_mul_right _ ?_)
          omega
        rw [step, if_pos hbounds] at h
        cases needed with
        | zero =>
            cases h
            refine ⟨trivial, breaks_of_ne ?_⟩
            omega
        | succ n =>
            cases h
            refine ⟨⟨by decide, ?_⟩, rfl⟩
            rw [Nat.pow_succ', ← Nat.mul_assoc] at hmore
            simpa using hmore
      · rw [step, if_neg hbounds] at h
        cases h

/-! ### Display -/

theorem decodeLossyFrom_of_step {s : State} {b : UInt8} {r : Reading} (h : step s b = some r)
    (text : Bytes) :
    decodeLossyFrom s (b :: text) = r.done.toList ++ decodeLossyFrom r.next text := by
  cases s <;> simp [decodeLossyFrom, h]

theorem decodeLossyFrom_rest {b : UInt8} (h : start b = none) (text : Bytes) :
    decodeLossyFrom .rest (b :: text) = replacement :: decodeLossyFrom .rest text := by
  simp [decodeLossyFrom, step, h]

/-- A byte that cannot go on with a character is read again, as the start of another one. -/
theorem decodeLossyFrom_inside {n value : Nat} {low high b : UInt8}
    (h : step (.inside n low high value) b = none) (text : Bytes) :
    decodeLossyFrom (.inside n low high value) (b :: text) =
      replacement :: decodeLossyFrom .rest (b :: text) := by
  have hrest : step .rest b = start b := rfl
  simp only [decodeLossyFrom, h, hrest]
  cases start b <;> rfl

/-- What starts no character is no newline. -/
theorem ne_newline_of_start {b : UInt8} (h : start b = none) : b ≠ newline := by
  rintro rfl
  cases h

theorem count_decodeLossyFrom_of_step {s : State} {b : UInt8} {r : Reading} {text : Bytes}
    (hs : s.Sound) (h : step s b = some r)
    (ih : ∀ {s : State}, s.Sound → (decodeLossyFrom s text).count '\n' = text.count newline) :
    (decodeLossyFrom s (b :: text)).count '\n' = (b :: text).count newline := by
  obtain ⟨hnext, hbreaks⟩ := sound_step hs h
  rw [decodeLossyFrom_of_step h, List.count_append, ih hnext, ← Reading.breaks, hbreaks,
    List.count_cons, Nat.add_comm]
  simp

/-- **Decoding keeps line breaks**, and makes none. -/
theorem count_decodeLossyFrom {s : State} (hs : s.Sound) (text : Bytes) :
    (decodeLossyFrom s text).count '\n' = text.count newline := by
  induction text generalizing s with
  | nil => cases s <;> rfl
  | cons b text ih =>
      have hrest : (decodeLossyFrom .rest (b :: text)).count '\n' = (b :: text).count newline := by
        cases hb : start b with
        | some r => exact count_decodeLossyFrom_of_step (s := .rest) trivial hb ih
        | none =>
            rw [decodeLossyFrom_rest hb, List.count_cons_of_ne (by decide),
              List.count_cons_of_ne (ne_newline_of_start hb), ih (s := .rest) trivial]
      cases hstep : step s b with
      | some r => exact count_decodeLossyFrom_of_step hs hstep ih
      | none =>
          cases s with
          | rest => exact hrest
          | inside n low high value =>
              rw [decodeLossyFrom_inside hstep, List.count_cons_of_ne (by decide), hrest]

end Utf8

theorem Path.count_display (p : Path) : p.display.toList.count '\n' = p.bytes.count newline := by
  rw [Path.display, Utf8.display, String.toList_ofList]
  exact Utf8.count_decodeLossyFrom (s := .rest) trivial p.bytes

end StubInsertion
