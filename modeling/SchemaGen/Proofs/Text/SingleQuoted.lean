import SchemaGen.Text.SingleQuoted

/-!
# Reading back single-quoted literals

The reader of literals stops at the end of a written literal, whatever follows, and gives the text
that was written (`read_encodeChars`). What is written holds no controls and no line terminators.
-/

namespace SchemaGen.Text.SingleQuoted

-- ---------------------------------------------------------------------------
-- Escapes
-- ---------------------------------------------------------------------------

theorem hexNumber?_hexDigit (n : Nat) (h : n < 256) :
    hexNumber? [hexDigit (n / 16), hexDigit (n % 16)] = some n := by
  have all : ∀ high < 16, ∀ low < 16,
      hexNumber? [hexDigit high, hexDigit low] = some (16 * high + low) := by
    decide +kernel
  rw [all _ (by omega) _ (by omega)]
  congr 1
  omega

def isBare (c : Char) : Bool :=
  c != backslash && c != quote && !(c.toNat < 0x20 || c.toNat == 0x7f) && !isLineTerminator c

theorem encodeChar_cases (c : Char) :
    (isBare c = true ∧ encodeChar c = [c]) ∨
      (c.toNat < 0x80 ∧
        encodeChar c = [backslash, 'x', hexDigit (c.toNat / 16), hexDigit (c.toNat % 16)]) ∨
      c ∈ [backslash, quote, '\n', '\r', '\t', Char.ofNat 0x2028, Char.ofNat 0x2029] := by
  by_cases hlisted : c ∈ [backslash, quote, '\n', '\r', '\t', Char.ofNat 0x2028, Char.ofNat 0x2029]
  · exact .inr (.inr hlisted)
  · simp only [List.mem_cons, List.not_mem_nil, or_false, not_or] at hlisted
    obtain ⟨hb, hq, hn, hr, ht, h8, h9⟩ := hlisted
    have h8' : c.toNat ≠ 0x2028 := fun h => h8 (by rw [← h, Char.ofNat_toNat])
    have h9' : c.toNat ≠ 0x2029 := fun h => h9 (by rw [← h, Char.ofNat_toNat])
    by_cases hcontrol : c.toNat < 0x20 ∨ c.toNat = 0x7f
    · refine .inr (.inl ⟨by omega, ?_⟩)
      simp [encodeChar, hb, hq, hn, hr, ht, h8', h9', hcontrol]
    · refine .inl ⟨?_, ?_⟩
      · rw [not_or] at hcontrol
        simp [isBare, isLineTerminator, hb, hq, hn, hr, h8', h9', hcontrol]
      · simp [encodeChar, hb, hq, hn, hr, ht, h8', h9', hcontrol]

theorem readBody_bare {c : Char} (h : isBare c = true) (rest : List Char) :
    readBody (c :: rest) = (readBody rest).map fun r => (c :: r.1, r.2) := by
  simp only [isBare, Bool.and_eq_true, bne_iff_ne, ne_eq] at h
  obtain ⟨⟨⟨hb, hq⟩, _⟩, hl⟩ := h
  have hl' : isLineTerminator c = false := by simpa using hl
  rw [readBody.eq_def]
  simp [hb, hq, hl']

theorem readBody_encodeChar (c : Char) (rest : List Char) :
    readBody (encodeChar c ++ rest) = (readBody rest).map fun r => (c :: r.1, r.2) := by
  rcases encodeChar_cases c with ⟨hbare, he⟩ | ⟨hlow, he⟩ | hlisted
  · rw [he, List.singleton_append, readBody_bare hbare]
  · rw [he]
    have hcode := hexNumber?_hexDigit c.toNat (by omega)
    cases hrest : readBody rest <;> simp [readBody, backslash, quote, hcode, hrest]
  · simp only [List.mem_cons, List.not_mem_nil, or_false] at hlisted
    rcases hlisted with rfl | rfl | rfl | rfl | rfl | rfl | rfl
    all_goals
      cases h : readBody rest <;>
      simp [readBody, encodeChar, isLineTerminator, backslash, quote, hexNumber?, hexValue?, h]

-- ---------------------------------------------------------------------------
-- Literals
-- ---------------------------------------------------------------------------

theorem readBody_quote (rest : List Char) : readBody (quote :: rest) = some ([], rest) := by
  rw [readBody.eq_def]
  simp

theorem readBody_encode (text rest : List Char) :
    readBody (text.flatMap encodeChar ++ quote :: rest) = some (text, rest) := by
  induction text with
  | nil => exact readBody_quote rest
  | cons c text ih =>
    rw [List.flatMap_cons, List.append_assoc, readBody_encodeChar, ih]
    rfl

/-- A literal is read to its end and no further. -/
theorem read_encodeChars (text rest : List Char) :
    read (encodeChars text ++ rest) = some (text, rest) := by
  have h := readBody_encode text rest
  simpa [read, encodeChars] using h

-- ---------------------------------------------------------------------------
-- Characters of a literal
-- ---------------------------------------------------------------------------

theorem hexDigit_isBare (n : Nat) (h : n < 16) : isBare (hexDigit n) = true := by
  have all : ∀ digit < 16, isBare (hexDigit digit) = true := by decide +kernel
  exact all n h

theorem isBare_of_mem_encodeChar {c d : Char} (h : d ∈ encodeChar c) :
    isBare d = true ∨ d = backslash ∨ d = quote := by
  rcases encodeChar_cases c with ⟨hbare, he⟩ | ⟨hlow, he⟩ | hlisted
  · rw [he, List.mem_singleton] at h
    exact .inl (h ▸ hbare)
  · rw [he] at h
    simp only [List.mem_cons, List.not_mem_nil, or_false] at h
    rcases h with rfl | rfl | rfl | rfl
    · exact .inr (.inl rfl)
    · exact .inl (by decide)
    · exact .inl (hexDigit_isBare _ (by omega))
    · exact .inl (hexDigit_isBare _ (by omega))
  · have hall : [backslash, quote, '\n', '\r', '\t', Char.ofNat 0x2028, Char.ofNat 0x2029].all
        (fun c => (encodeChar c).all fun d => isBare d || d == backslash || d == quote) = true := by
      decide
    have hd := List.all_eq_true.mp (List.all_eq_true.mp hall c hlisted) d h
    simpa [or_assoc] using hd

theorem isBare_of_mem_encodeChars {text : List Char} {d : Char} (h : d ∈ encodeChars text) :
    isBare d = true ∨ d = backslash ∨ d = quote := by
  simp only [encodeChars, List.cons_append, List.mem_cons, List.mem_append, List.mem_flatMap,
    List.not_mem_nil, or_false] at h
  rcases h with h | ⟨c, _, h⟩ | h
  · exact .inr (.inr h)
  · exact isBare_of_mem_encodeChar h
  · exact .inr (.inr h)

theorem newline_notMem_encodeChars (text : List Char) : '\n' ∉ encodeChars text := by
  intro h
  rcases isBare_of_mem_encodeChars h with h | h | h
  all_goals revert h; decide

end SchemaGen.Text.SingleQuoted
