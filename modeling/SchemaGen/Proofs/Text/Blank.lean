import Mathlib.Data.List.DropRight
import SchemaGen.Text.Blank

/-!
# Laws of blanks and pieces

A text with a separator in it has the pieces of what stands before and after the separator
(`pieces_append_cons`). Trimming takes blanks off the ends and stops at the first character that is
not blank (`trimChars_append_cons`).
-/

namespace SchemaGen.Text

-- ---------------------------------------------------------------------------
-- Pieces
-- ---------------------------------------------------------------------------

theorem pieces_ne_nil (isSeparator : Char → Bool) (text : List Char) :
    pieces isSeparator text ≠ [] := by
  cases text with
  | nil => simp [pieces]
  | cons c rest =>
    simp only [pieces]
    split
    · simp
    · split <;> simp

theorem pieces_of_notMem {isSeparator : Char → Bool} {text : List Char}
    (h : ∀ c ∈ text, isSeparator c = false) : pieces isSeparator text = [text] := by
  induction text with
  | nil => rfl
  | cons c rest ih =>
    obtain ⟨hc, hrest⟩ := List.forall_mem_cons.mp h
    simp [pieces, hc, ih hrest]

theorem pieces_append_cons {isSeparator : Char → Bool} {separator : Char}
    (h : isSeparator separator = true) (first second : List Char) :
    pieces isSeparator (first ++ separator :: second) =
      pieces isSeparator first ++ pieces isSeparator second := by
  induction first with
  | nil => simp [pieces, h]
  | cons c rest ih =>
    by_cases hc : isSeparator c = true
    · simp [pieces, hc, ih]
    · obtain ⟨piece, more, hpieces⟩ := List.exists_cons_of_ne_nil (pieces_ne_nil isSeparator rest)
      simp [pieces, hc, ih, hpieces]

-- ---------------------------------------------------------------------------
-- Trimming
-- ---------------------------------------------------------------------------

theorem dropTrailing_append {back : List Char} (h : ∀ c ∈ back, isBlank c = true)
    (text : List Char) : dropTrailing isBlank (text ++ back) = dropTrailing isBlank text := by
  have hback : ∀ c ∈ back.reverse, isBlank c = true := by simpa using h
  simp [dropTrailing, List.dropWhile_append_of_pos hback]

theorem trimChars_eq_nil_iff {text : List Char} :
    trimChars text = [] ↔ ∀ c ∈ text, isBlank c = true := by
  have hdrop : trimChars text = [] ↔ ∀ c ∈ text.dropWhile isBlank, isBlank c = true :=
    List.rdropWhile_eq_nil_iff
  rw [hdrop]
  constructor
  · intro hrest c hc
    rw [← List.takeWhile_append_dropWhile (p := isBlank) (l := text), List.mem_append] at hc
    exact hc.elim List.mem_takeWhile_imp (hrest c)
  · intro hall c hc
    exact hall c ((List.dropWhile_sublist _).subset hc)

theorem trimChars_dropWhile (text : List Char) :
    trimChars (text.dropWhile isBlank) = trimChars text := by
  rw [trimChars, List.dropWhile_idempotent, trimChars]

theorem trimChars_append {back : List Char} (h : ∀ c ∈ back, isBlank c = true)
    (text : List Char) : trimChars (text ++ back) = trimChars text := by
  rw [trimChars, List.dropWhile_append]
  split
  · next hempty =>
    -- nothing but blanks
    have htext := List.dropWhile_eq_nil_iff.mp (List.isEmpty_iff.mp hempty)
    rw [List.dropWhile_eq_nil_iff.mpr h, trimChars_eq_nil_iff.mpr htext]
    rfl
  · exact dropTrailing_append h _

theorem trimChars_dropTrailing (text : List Char) :
    trimChars (dropTrailing isBlank text) = trimChars text := by
  have hsplit : dropTrailing isBlank text ++ text.rtakeWhile isBlank = text :=
    List.rdropWhile_append_rtakeWhile
  have hblank : ∀ c ∈ text.rtakeWhile isBlank, isBlank c = true := fun c hc =>
    List.mem_rtakeWhile_imp hc
  rw [← trimChars_append hblank, hsplit]

theorem dropWhile_append_cons {c : Char} (h : isBlank c = false) (first second : List Char) :
    (first ++ c :: second).dropWhile isBlank = first.dropWhile isBlank ++ c :: second := by
  rw [List.dropWhile_append]
  split
  · next hempty => simp [List.isEmpty_iff.mp hempty, h]
  · rfl

theorem trimChars_append_cons {c : Char} (h : isBlank c = false) (first second : List Char) :
    trimChars (first ++ c :: second) =
      first.dropWhile isBlank ++ c :: dropTrailing isBlank second := by
  rw [trimChars, dropWhile_append_cons h]
  simp [dropTrailing, dropWhile_append_cons h]

theorem mem_of_mem_trimChars {text : List Char} {c : Char} (h : c ∈ trimChars text) : c ∈ text := by
  have hdrop : c ∈ text.dropWhile isBlank := (List.rdropWhile_prefix isBlank _).subset h
  exact (List.dropWhile_sublist _).subset hdrop

end SchemaGen.Text
