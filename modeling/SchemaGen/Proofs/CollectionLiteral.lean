import SchemaGen.Proofs.Outline

/-!
# The collection in a module's text

A module names its collection in a literal. Whatever the name, the literal is read back as that
name, ends where it was closed, and takes up part of one line (`literal_denotes_collection`).
-/

namespace SchemaGen

namespace Text.SingleQuoted

theorem isBare_iff {c : Char} :
    isBare c = true ↔ c ≠ backslash ∧ c ≠ quote ∧ 0x20 ≤ c.toNat ∧ c.toNat ≠ 0x7f ∧
      c.toNat ≠ 0x2028 ∧ c.toNat ≠ 0x2029 := by
  have hnewline : c = '\n' → c.toNat < 0x20 := by rintro rfl; decide
  have hreturn : c = '\r' → c.toNat < 0x20 := by rintro rfl; decide
  simp only [isBare, isLineTerminator, Bool.and_eq_true, bne_iff_ne, Bool.not_eq_true',
    Bool.or_eq_false_iff, decide_eq_false_iff_not, beq_eq_false_iff_ne, ne_eq, Nat.not_lt]
  constructor
  · rintro ⟨⟨⟨hb, hq⟩, hlow, hdelete⟩, ⟨-, hline⟩, hparagraph⟩
    exact ⟨hb, hq, hlow, hdelete, hline, hparagraph⟩
  · rintro ⟨hb, hq, hlow, hdelete, hline, hparagraph⟩
    have hn : ¬c = '\n' := fun h => absurd (hnewline h) (Nat.not_lt.mpr hlow)
    have hr : ¬c = '\r' := fun h => absurd (hreturn h) (Nat.not_lt.mpr hlow)
    exact ⟨⟨⟨hb, hq⟩, hlow, hdelete⟩, ⟨⟨hn, hr⟩, hline⟩, hparagraph⟩

theorem visible_of_mem_encodeChars {text : List Char} {c : Char} (h : c ∈ encodeChars text) :
    0x20 ≤ c.toNat ∧ c.toNat ≠ 0x7f ∧ c.toNat ≠ 0x2028 ∧ c.toNat ≠ 0x2029 := by
  rcases isBare_of_mem_encodeChars h with hbare | rfl | rfl
  · obtain ⟨-, -, hvisible⟩ := isBare_iff.mp hbare
    exact hvisible
  · decide
  · decide

end Text.SingleQuoted

namespace ModuleText

open Text.SingleQuoted (encode encodeChars read read_encodeChars visible_of_mem_encodeChars)

def ended (lines : List String) : List Char := lines.flatMap fun line => line.toList ++ ['\n']

theorem ended_append (first second : List String) :
    ended (first ++ second) = ended first ++ ended second := List.flatMap_append

theorem toList_intercalate_newline {lines : List String} (h : lines ≠ []) :
    ("\n".intercalate lines ++ "\n").toList = ended lines := by
  have hjoin : ∀ (first : List Char) (more : List (List Char)),
      ['\n'].intercalate (first :: more) ++ ['\n'] =
        (first :: more).flatMap fun line => line ++ ['\n'] := by
    intro first more
    induction more generalizing first with
    | nil => simp [List.intercalate]
    | cons second more ih =>
      have hrest := ih second
      simp only [List.intercalate, List.intersperse_cons_cons, List.flatten_cons,
        List.append_assoc, List.flatMap_cons] at hrest ⊢
      rw [hrest]
  obtain ⟨first, more, rfl⟩ := List.exists_cons_of_ne_nil h
  have hlines := hjoin first.toList (more.map String.toList)
  rw [String.toList_append, String.toList_intercalate]
  refine hlines.trans ?_
  simp [ended, List.flatMap_map]

def beforeCollection (target : Target) (file : SchemaFile) (message : SchemaMessage) :
    List String :=
  header file ++ ["", importLine target, "", declarationLine target message.name] ++
    fieldLines message.fields ++ ["\x7d, \x7b"]

def afterCollection (target : Target) (message : SchemaMessage) : List Char :=
  ",\n".toList ++ ended (["  timestamps: true", "\x7d);"] ++ exportLines target message)

theorem content_eq_collection (target : Target) (file : SchemaFile) (message : SchemaMessage) :
    (content target file message).toList =
      ended (beforeCollection target file message) ++ "  collection: ".toList ++
        (encode message.collection).toList ++ afterCollection target message := by
  have hlines : lines target file message = beforeCollection target file message ++
      ["  collection: " ++ encode message.collection ++ ","] ++
        (["  timestamps: true", "\x7d);"] ++ exportLines target message) := by
    simp [lines, schemaLines, beforeCollection, declarationLine]
  have hne : lines target file message ≠ [] := by simp [hlines]
  rw [content, toList_intercalate_newline hne, hlines, ended_append, ended_append,
    afterCollection]
  simp [ended, List.append_assoc]

/-- A written literal is read as the text that was written, up to its end and no further, and holds
no controls and no line terminators. So the literal in a module's text is read as the collection of
the message, and what follows it is the same for every collection. -/
theorem literal_denotes_collection :
    (∀ (text : String) (rest : List Char),
      read ((encode text).toList ++ rest) = some (text.toList, rest) ∧
        ∀ c ∈ (encode text).toList,
          0x20 ≤ c.toNat ∧ c.toNat ≠ 0x7f ∧ c.toNat ≠ 0x2028 ∧ c.toNat ≠ 0x2029) ∧
      ∀ (target : Target) (file : SchemaFile) (message : SchemaMessage),
        (content target file message).toList =
          ended (beforeCollection target file message) ++ "  collection: ".toList ++
            (encode message.collection).toList ++ afterCollection target message ∧
        read ((encode message.collection).toList ++ afterCollection target message) =
          some (message.collection.toList, afterCollection target message) := by
  have hread : ∀ (text : String) (rest : List Char),
      read ((encode text).toList ++ rest) = some (text.toList, rest) := by
    intro text rest
    rw [encode, String.toList_ofList]
    exact read_encodeChars text.toList rest
  refine ⟨fun text rest => ⟨hread text rest, ?_⟩, ?_⟩
  · intro c hc
    rw [encode, String.toList_ofList] at hc
    exact visible_of_mem_encodeChars hc
  · intro target file message
    exact ⟨content_eq_collection target file message, hread _ _⟩

end ModuleText

end SchemaGen
