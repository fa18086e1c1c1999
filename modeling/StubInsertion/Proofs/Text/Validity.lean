import StubInsertion.Proofs.Text.LineBreaks

/-! # Valid texts

Bytes are valid if the machine that reads them rests when they end.

* **Sequences.** `Sequence` lists the bytes that make one character.  The encoding of a character is
  one of them (`sequence_encode`), each of them encodes a character (`Sequence.exists_char`), and
  they are what the machine reads from rest to rest (`Sequence.run`, `exists_sequence_of_run`).
* **Strings.** So the valid texts are the encodings of strings (`isValid_iff`).
* **Joints.** A newline is a character of its own and stands inside no other.  A text that ends in
  one is read up to rest or not at all, and whatever follows is read from rest
  (`isValid_append_of_closed`). -/

namespace StubInsertion.Utf8

/-! ### Sequences -/

/-- The bytes of one character.  The bounds of the second byte shut out overlong forms, surrogates
and numbers above `10FFFF`. -/
inductive Sequence : Bytes → Prop
  | one {a : UInt8} (ha : a.toNat ≤ 0x7f) : Sequence [a]
  | two {a b : UInt8} (ha : 0xc2 ≤ a.toNat) (ha' : a.toNat ≤ 0xdf)
      (hb : 0x80 ≤ b.toNat) (hb' : b.toNat ≤ 0xbf) : Sequence [a, b]
  | three {a b c : UInt8} (ha : 0xe0 ≤ a.toNat) (ha' : a.toNat ≤ 0xef)
      (hb : (if a.toNat = 0xe0 then 0xa0 else 0x80) ≤ b.toNat)
      (hb' : b.toNat ≤ if a.toNat = 0xed then 0x9f else 0xbf)
      (hc : 0x80 ≤ c.toNat) (hc' : c.toNat ≤ 0xbf) : Sequence [a, b, c]
  | four {a b c d : UInt8} (ha : 0xf0 ≤ a.toNat) (ha' : a.toNat ≤ 0xf4)
      (hb : (if a.toNat = 0xf0 then 0x90 else 0x80) ≤ b.toNat)
      (hb' : b.toNat ≤ if a.toNat = 0xf4 then 0x8f else 0xbf)
      (hc : 0x80 ≤ c.toNat) (hc' : c.toNat ≤ 0xbf)
      (hd : 0x80 ≤ d.toNat) (hd' : d.toNat ≤ 0xbf) : Sequence [a, b, c, d]

theorem sequence_encode (c : Char) : Sequence (String.utf8EncodeChar c) := by
  have hvalid : c.val.toNat.isValidChar := c.valid
  unfold Nat.isValidChar at hvalid
  unfold String.utf8EncodeChar
  simp only []
  split_ifs
  · apply Sequence.one
    rw [UInt8.toNat_ofNat']
    omega
  · apply Sequence.two <;> rw [UInt8.toNat_ofNat'] <;> omega
  · apply Sequence.three <;> simp only [UInt8.toNat_ofNat']
    case hb => split <;> omega
    case hb' => split <;> omega
    all_goals omega
  · apply Sequence.four <;> simp only [UInt8.toNat_ofNat']
    case hb => split <;> omega
    case hb' => split <;> omega
    all_goals omega

theorem exists_char_of_valid {v : Nat} (h : v.isValidChar) : ∃ c : Char, c.val.toNat = v := by
  refine ⟨Char.ofNat v, ?_⟩
  rw [Char.ofNat, dif_pos h]
  rfl

theorem Sequence.exists_char {bs : Bytes} (h : Sequence bs) :
    ∃ c, String.utf8EncodeChar c = bs := by
  cases h with
  | @one a ha =>
      obtain ⟨c, hc⟩ := exists_char_of_valid (v := a.toNat) (.inl (by omega))
      refine ⟨c, ?_⟩
      rw [String.utf8EncodeChar, hc, if_pos ha, UInt8.ofNat_toNat]
  | @two a b ha ha' hb hb' =>
      obtain ⟨c, hc⟩ := exists_char_of_valid
        (v := (a.toNat - 0xc0) * 64 + (b.toNat - 0x80)) (.inl (by omega))
      refine ⟨c, ?_⟩
      rw [String.utf8EncodeChar, hc, if_neg (by omega), if_pos (by omega)]
      simp only [List.cons.injEq, and_true, ← UInt8.toNat_inj, UInt8.toNat_ofNat']
      omega
  | @three a b c ha ha' hb hb' hc hc' =>
      have hlow : 0x80 ≤ b.toNat := by
        split at hb <;> omega
      have hhigh : b.toNat ≤ 0xbf := by
        split at hb' <;> omega
      have hlong : 0x7ff < (a.toNat - 0xe0) * 4096 + (b.toNat - 0x80) * 64 + (c.toNat - 0x80) := by
        split at hb <;> omega
      have hvalid : Nat.isValidChar
          ((a.toNat - 0xe0) * 4096 + (b.toNat - 0x80) * 64 + (c.toNat - 0x80)) := by
        -- after the first byte 0xed the second one keeps below the surrogates
        unfold Nat.isValidChar
        split at hb' <;> omega
      obtain ⟨d, hd⟩ := exists_char_of_valid hvalid
      refine ⟨d, ?_⟩
      rw [String.utf8EncodeChar, hd, if_neg (by omega), if_neg (by omega), if_pos (by omega)]
      simp only [List.cons.injEq, and_true, ← UInt8.toNat_inj, UInt8.toNat_ofNat']
      omega
  | @four a b c d ha ha' hb hb' hc hc' hd hd' =>
      have hlow : 0x80 ≤ b.toNat := by
        split at hb <;> omega
      have hhigh : b.toNat ≤ 0xbf := by
        split at hb' <;> omega
      have hlong : 0xffff < (a.toNat - 0xf0) * 262144 + (b.toNat - 0x80) * 4096 +
          (c.toNat - 0x80) * 64 + (d.toNat - 0x80) := by
        split at hb <;> omega
      have hvalid : (a.toNat - 0xf0) * 262144 + (b.toNat - 0x80) * 4096 +
          (c.toNat - 0x80) * 64 + (d.toNat - 0x80) < 0x110000 := by
        split at hb' <;> omega
      obtain ⟨e, he⟩ := exists_char_of_valid (.inr ⟨by omega, hvalid⟩)
      refine ⟨e, ?_⟩
      rw [String.utf8EncodeChar, he, if_neg (by omega), if_neg (by omega), if_neg (by omega)]
      simp only [List.cons.injEq, and_true, ← UInt8.toNat_inj, UInt8.toNat_ofNat']
      omega

/-! ### What the machine reads -/

theorem start_one {b : UInt8} (h : b.toNat ≤ 0x7f) :
    start b = some ⟨.rest, some (Char.ofNat b.toNat)⟩ := by
  rw [start, if_pos h]

theorem start_two {b : UInt8} (h : 0xc2 ≤ b.toNat) (h' : b.toNat ≤ 0xdf) :
    start b = some ⟨.inside 0 0x80 0xbf (b.toNat - 0xc0), none⟩ := by
  rw [start, if_neg (by omega), if_neg (by omega), if_pos h']

theorem start_three {b : UInt8} (h : 0xe0 ≤ b.toNat) (h' : b.toNat ≤ 0xef) :
    start b = some ⟨.inside 1 (if b.toNat = 0xe0 then 0xa0 else 0x80)
      (if b.toNat = 0xed then 0x9f else 0xbf) (b.toNat - 0xe0), none⟩ := by
  rw [start, if_neg (by omega), if_neg (by omega), if_neg (by omega)]
  split
  · rw [if_neg (by omega)]
  · split
    · rfl
    · rfl

theorem start_four {b : UInt8} (h : 0xf0 ≤ b.toNat) (h' : b.toNat ≤ 0xf4) :
    start b = some ⟨.inside 2 (if b.toNat = 0xf0 then 0x90 else 0x80)
      (if b.toNat = 0xf4 then 0x8f else 0xbf) (b.toNat - 0xf0), none⟩ := by
  rw [start, if_neg (by omega), if_neg (by omega), if_neg (by omega), if_neg (by omega),
    if_neg (by omega), if_neg (by omega)]
  split
  · rw [if_neg (by omega)]
  · split
    · rw [if_neg (by omega)]
    · rw [if_pos (by omega), if_pos (by omega)]

theorem start_cases {b : UInt8} {r : Reading} (h : start b = some r) :
    b.toNat ≤ 0x7f ∨ (0xc2 ≤ b.toNat ∧ b.toNat ≤ 0xdf) ∨ (0xe0 ≤ b.toNat ∧ b.toNat ≤ 0xef) ∨
      (0xf0 ≤ b.toNat ∧ b.toNat ≤ 0xf4) := by
  unfold start at h
  dsimp only at h
  split_ifs at h <;> omega

theorem run_of_start {b : UInt8} {r : Reading} (hr : start b = some r) (rest : Bytes) :
    run .rest (b :: rest) = run r.next rest := by
  rw [run, step, hr]

/-- The state after a byte inside a character of which `needed` more bytes are missing. -/
def State.after (needed value : Nat) : State :=
  match needed with
  | 0 => .rest
  | n + 1 => .inside n 0x80 0xbf value

theorem run_inside_cons {n value : Nat} {low high b : UInt8} {rest : Bytes} :
    run (.inside n low high value) (b :: rest) =
      if low.toNat ≤ b.toNat ∧ b.toNat ≤ high.toNat then
        run (State.after n (value * 64 + (b.toNat - 0x80))) rest
      else none := by
  rw [run, step]
  by_cases hb : low ≤ b ∧ b ≤ high
  · have hbounds : low.toNat ≤ b.toNat ∧ b.toNat ≤ high.toNat := hb
    rw [if_pos hb, if_pos hbounds]
    cases n <;> rfl
  · have hbounds : ¬ (low.toNat ≤ b.toNat ∧ b.toNat ≤ high.toNat) := hb
    rw [if_neg hb, if_neg hbounds]

/-- A character that is begun goes on with a byte within the bounds. -/
theorem exists_of_run_inside {n value : Nat} {low high : UInt8} {text : Bytes}
    (h : run (.inside n low high value) text = some .rest) :
    ∃ b rest value', text = b :: rest ∧ low.toNat ≤ b.toNat ∧ b.toNat ≤ high.toNat ∧
      run (State.after n value') rest = some .rest := by
  cases text with
  | nil => cases h
  | cons b rest =>
      rw [run_inside_cons] at h
      split at h
      · rename_i hb
        exact ⟨b, rest, _, rfl, hb.1, hb.2, h⟩
      · cases h

/-- The machine reads the bytes of a character. -/
theorem Sequence.run {bs : Bytes} (h : Sequence bs) : run .rest bs = some .rest := by
  cases h with
  | one ha => rw [run_of_start (start_one ha)]; rfl
  | two ha ha' hb hb' =>
      rw [run_of_start (start_two ha ha'), run_inside_cons, if_pos ⟨hb, hb'⟩]
      rfl
  | three ha ha' hb hb' hc hc' =>
      rw [run_of_start (start_three ha ha'), run_inside_cons, apply_ite UInt8.toNat,
        apply_ite UInt8.toNat, if_pos ⟨hb, hb'⟩, State.after, run_inside_cons, if_pos ⟨hc, hc'⟩]
      rfl
  | four ha ha' hb hb' hc hc' hd hd' =>
      rw [run_of_start (start_four ha ha'), run_inside_cons, apply_ite UInt8.toNat,
        apply_ite UInt8.toNat, if_pos ⟨hb, hb'⟩, State.after, run_inside_cons, if_pos ⟨hc, hc'⟩,
        State.after, run_inside_cons, if_pos ⟨hd, hd'⟩]
      rfl

/-- What the machine reads from rest to rest starts with the bytes of a character. -/
theorem exists_sequence_of_run {b : UInt8} {rest : Bytes} (h : run .rest (b :: rest) = some .rest) :
    ∃ bs more, b :: rest = bs ++ more ∧ Sequence bs ∧ run .rest more = some .rest := by
  cases hr : start b with
  | none => rw [Utf8.run, step, hr] at h; cases h
  | some r =>
      rcases start_cases hr with hb | ⟨hb, hb'⟩ | ⟨hb, hb'⟩ | ⟨hb, hb'⟩
      · rw [run_of_start (start_one hb)] at h
        exact ⟨[b], rest, rfl, .one hb, h⟩
      · rw [run_of_start (start_two hb hb')] at h
        obtain ⟨b₁, rest, _, rfl, h₁, h₁', h⟩ := exists_of_run_inside h
        exact ⟨[b, b₁], rest, rfl, .two hb hb' h₁ h₁', h⟩
      · rw [run_of_start (start_three hb hb')] at h
        obtain ⟨b₁, rest, _, rfl, h₁, h₁', h⟩ := exists_of_run_inside h
        obtain ⟨b₂, rest, _, rfl, h₂, h₂', h⟩ := exists_of_run_inside h
        rw [apply_ite UInt8.toNat] at h₁ h₁'
        exact ⟨[b, b₁, b₂], rest, rfl, .three hb hb' h₁ h₁' h₂ h₂', h⟩
      · rw [run_of_start (start_four hb hb')] at h
        obtain ⟨b₁, rest, _, rfl, h₁, h₁', h⟩ := exists_of_run_inside h
        obtain ⟨b₂, rest, _, rfl, h₂, h₂', h⟩ := exists_of_run_inside h
        obtain ⟨b₃, rest, _, rfl, h₃, h₃', h⟩ := exists_of_run_inside h
        rw [apply_ite UInt8.toNat] at h₁ h₁'
        exact ⟨[b, b₁, b₂, b₃], rest, rfl, .four hb hb' h₁ h₁' h₂ h₂' h₃ h₃', h⟩

/-! ### Strings -/

theorem run_flatMap_encode (cs : List Char) :
    run .rest (cs.flatMap String.utf8EncodeChar) = some .rest := by
  induction cs with
  | nil => rfl
  | cons c cs ih =>
      rw [List.flatMap_cons, run_append, (sequence_encode c).run, Option.bind_some, ih]

theorem exists_chars_of_run (n : Nat) {text : Bytes} (hn : text.length ≤ n)
    (h : run .rest text = some .rest) : ∃ cs : List Char, cs.flatMap String.utf8EncodeChar = text := by
  induction n generalizing text with
  | zero => exact ⟨[], (List.eq_nil_of_length_eq_zero (by omega)).symm⟩
  | succ n ih =>
      cases text with
      | nil => exact ⟨[], rfl⟩
      | cons b rest =>
          obtain ⟨bs, more, heq, hbs, hmore⟩ := exists_sequence_of_run h
          obtain ⟨c, rfl⟩ := hbs.exists_char
          have hlen := congrArg List.length heq
          have hpos := c.utf8Size_pos
          rw [List.length_append, String.length_utf8EncodeChar] at hlen
          obtain ⟨cs, rfl⟩ := ih (by omega) hmore
          exact ⟨c :: cs, by rw [heq, List.flatMap_cons]⟩

/-- **The valid texts are the encodings of strings.** -/
theorem isValid_iff {text : Bytes} : isValid text = true ↔ ∃ s, utf8 s = text := by
  rw [isValid, decide_eq_true_iff]
  constructor
  · intro h
    obtain ⟨cs, hcs⟩ := exists_chars_of_run text.length (Nat.le_refl _) h
    exact ⟨String.ofList cs, by rw [utf8, String.toList_ofList, hcs]⟩
  · rintro ⟨s, rfl⟩
    exact run_flatMap_encode s.toList

/-! ### Joints -/

theorem sound_run {s s' : State} {text : Bytes} (hs : s.Sound) (h : run s text = some s') :
    s'.Sound := by
  induction text generalizing s with
  | nil => cases h; exact hs
  | cons b text ih =>
      rw [run] at h
      split at h
      · rename_i r hr
        exact ih (sound_step hs hr).1 h
      · cases h

/-- No character has a newline inside. -/
theorem step_newline_eq_none {needed value : Nat} {low high : UInt8}
    (hs : (State.inside needed low high value).Sound) :
    step (.inside needed low high value) newline = none := by
  rw [step, if_neg]
  rintro ⟨hlow, -⟩
  have hten : low.toNat ≤ 10 := hlow
  have := hs.1
  omega

/-- A newline is read from rest to rest or not at all. -/
theorem run_concat_newline (text : Bytes) :
    run .rest (text ++ [newline]) = if isValid text then some .rest else none := by
  unfold isValid
  rw [run_append]
  cases h : run .rest text with
  | none => rfl
  | some s =>
      cases s with
      | rest => rfl
      | inside needed low high value =>
          have hsound := sound_run (s := .rest) trivial h
          simp [run, step_newline_eq_none hsound]

/-- A newline completes nothing and breaks nothing. -/
theorem isValid_concat_newline (text : Bytes) : isValid (text ++ [newline]) = isValid text := by
  rw [isValid, run_concat_newline]
  cases isValid text <;> rfl

theorem rest_of_run_closed {text : Bytes} {s : State} (hc : Source.Closed text)
    (h : run .rest text = some s) : s = .rest := by
  rcases List.eq_nil_or_concat text with rfl | ⟨init, b, rfl⟩
  · cases h; rfl
  · rw [List.concat_eq_append] at h hc
    obtain rfl : b = newline := hc b (by simp)
    rw [run_concat_newline] at h
    split at h <;> cases h
    rfl

/-- What follows a closed text is read by itself. -/
theorem isValid_append_of_closed {a : Bytes} (ha : Source.Closed a) (b : Bytes) :
    isValid (a ++ b) = (isValid a && isValid b) := by
  unfold isValid
  rw [run_append]
  cases h : run .rest a with
  | none => rfl
  | some s =>
      obtain rfl := rest_of_run_closed ha h
      simp

/-- What follows a valid text is read by itself. -/
theorem isValid_append_of_isValid {a : Bytes} (ha : isValid a = true) (b : Bytes) :
    isValid (a ++ b) = isValid b := by
  unfold isValid at *
  rw [run_append, decide_eq_true_iff.mp ha, Option.bind_some]

end StubInsertion.Utf8
