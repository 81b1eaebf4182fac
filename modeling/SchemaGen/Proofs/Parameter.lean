import SchemaGen.Proofs.OrderedMap
import SchemaGen.Proofs.Text.Blank
import SchemaGen.Target

/-!
# What a parameter says

An entry of a parameter sets a key to a value, and `Sets` says how it is read off its text. Main
statements: a parameter can be joined from two, of which the later one decides (`parse_joined`), and
whatever is written entry by entry is read back, with any separators and blanks (`parse_write`).
-/

namespace SchemaGen

namespace Parameter

-- ---------------------------------------------------------------------------
-- Entries
-- ---------------------------------------------------------------------------

def trim (text : List Char) : String := String.ofList (Text.trimChars text)

/-- What an entry sets: the key before its first equals sign to the value after it, or else a word
to `true`. -/
inductive Sets : (entry : List Char) → (key value : String) → Prop where
  | pair {key : List Char} (value : List Char) (hkey : '=' ∉ key) :
    Sets (key ++ '=' :: value) (Text.lower (trim key)) (trim value)
  | word {word : List Char} (hword : '=' ∉ word) (hseen : ∃ c ∈ word, Text.isBlank c = false) :
    Sets word (Text.lower (trim word)) "true"

theorem lower_trim (text : List Char) :
    String.ofList (Text.lowerChars (Text.trimChars text)) = Text.lower (trim text) := by
  rw [Text.lower, trim, String.toList_ofList]

theorem cutAtEquals?_append {key : List Char} (h : '=' ∉ key) (value : List Char) :
    cutAtEquals? (key ++ '=' :: value) = some (key, value) := by
  induction key with
  | nil => simp [cutAtEquals?]
  | cons c rest ih =>
    rw [List.mem_cons, not_or] at h
    simp [cutAtEquals?, Ne.symm h.1, ih h.2]

theorem cutAtEquals?_of_notMem {word : List Char} (h : '=' ∉ word) : cutAtEquals? word = none := by
  induction word with
  | nil => rfl
  | cons c rest ih =>
    rw [List.mem_cons, not_or] at h
    simp [cutAtEquals?, Ne.symm h.1, ih h.2]

theorem entry?_pair {key : List Char} (h : '=' ∉ key) (value : List Char) :
    entry? (key ++ '=' :: value) = some (Text.lower (trim key), trim value) := by
  have hkey : '=' ∉ key.dropWhile Text.isBlank := fun hmem =>
    h ((List.dropWhile_sublist _).subset hmem)
  -- the whole is trimmed first, the key and the value again after the cut
  have htrim := Text.trimChars_append_cons (show Text.isBlank '=' = false by decide) key value
  have hcut := cutAtEquals?_append hkey (Text.dropTrailing Text.isBlank value)
  unfold entry?
  split
  · next hnil => simp [htrim] at hnil
  · rw [htrim, hcut]
    simp [Text.trimChars_dropWhile, Text.trimChars_dropTrailing, lower_trim, trim]

theorem entry?_word {word : List Char} (h : '=' ∉ word) :
    entry? word =
      if Text.trimChars word = [] then none else some (Text.lower (trim word), "true") := by
  have hcut : cutAtEquals? (Text.trimChars word) = none :=
    cutAtEquals?_of_notMem fun hmem => h (Text.mem_of_mem_trimChars hmem)
  unfold entry?
  split
  · next hnil => rw [if_pos hnil]
  · next hne => rw [if_neg hne, hcut, lower_trim]

theorem entry?_eq_some_iff {entry : List Char} {key value : String} :
    entry? entry = some (key, value) ↔ Sets entry key value := by
  constructor
  · intro h
    by_cases hequals : '=' ∈ entry
    · obtain ⟨before, after, rfl, hbefore⟩ := List.eq_append_cons_of_mem hequals
      rw [entry?_pair hbefore, Option.some.injEq, Prod.mk.injEq] at h
      obtain ⟨rfl, rfl⟩ := h
      exact .pair after hbefore
    · rw [entry?_word hequals] at h
      split at h
      · cases h
      · next hseen =>
        rw [Option.some.injEq, Prod.mk.injEq] at h
        obtain ⟨rfl, rfl⟩ := h
        rw [Text.trimChars_eq_nil_iff] at hseen
        exact .word hequals (by simpa using hseen)
  · rintro (⟨value, hkey⟩ | ⟨hword, c, hc, hblank⟩)
    · exact entry?_pair hkey value
    · have hseen : Text.trimChars entry ≠ [] := fun hnil => by
        simp [Text.trimChars_eq_nil_iff.mp hnil c hc] at hblank
      rw [entry?_word hword, if_neg hseen]

theorem entry?_blank {text : List Char} (h : ∀ c ∈ text, Text.isBlank c = true) :
    entry? text = none := by
  have hequals : '=' ∉ text := fun hmem => absurd (h _ hmem) (by decide)
  rw [entry?_word hequals, if_pos (Text.trimChars_eq_nil_iff.mpr h)]

-- ---------------------------------------------------------------------------
-- Values
-- ---------------------------------------------------------------------------

def SetsLast (parameter key value : String) : Prop :=
  ∃ before entry after, Text.pieces isSeparator parameter.toList = before ++ entry :: after ∧
    Sets entry key value ∧ ∀ later ∈ after, ∀ other, ¬Sets later key other

theorem nodup_keys_parse (parameter : String) : (parse parameter).keys.Nodup :=
  OrderedMap.nodup_keys_ofList _

def isFor (key : String) (entry : List Char) : Bool := Option.any (·.1 = key) <| entry? entry

theorem isFor_iff {key : String} {entry : List Char} :
    isFor key entry = true ↔ ∃ value, Sets entry key value := by
  simp [isFor, Option.any_eq_true, ← entry?_eq_some_iff]

theorem get?_parse (parameter key : String) :
    (parse parameter).get? key =
      (((Text.pieces isSeparator parameter.toList).reverse.find? (isFor key)).bind entry?).map
        Prod.snd := by
  rw [parse, OrderedMap.get?_ofList, entries, ← List.filterMap_reverse, List.find?_filterMap]
  rfl

theorem find?_reverse_eq_some_iff {test : List Char → Bool} {pieces : List (List Char)}
    {piece : List Char} :
    pieces.reverse.find? test = some piece ↔ test piece = true ∧
      ∃ before after, pieces = before ++ piece :: after ∧ ∀ later ∈ after, ¬test later = true := by
  rw [List.find?_eq_some_iff_append]
  refine and_congr_right fun _ => ⟨?_, ?_⟩
  · rintro ⟨later, earlier, hsplit, hlater⟩
    refine ⟨earlier.reverse, later.reverse, ?_, by simpa using hlater⟩
    rw [← List.reverse_reverse pieces, hsplit]
    simp
  · rintro ⟨before, after, rfl, hafter⟩
    exact ⟨after.reverse, before.reverse, by simp, by simpa using hafter⟩

/-- Under a key stands the value of its last entry. -/
theorem get?_parse_eq_some_iff {parameter key value : String} :
    (parse parameter).get? key = some value ↔ SetsLast parameter key value := by
  rw [get?_parse, Option.map_eq_some_iff]
  constructor
  · rintro ⟨⟨name, value⟩, hpair, rfl⟩
    obtain ⟨entry, hfound, hentry⟩ := Option.bind_eq_some_iff.mp hpair
    obtain ⟨hfor, before, after, hsplit, hafter⟩ := find?_reverse_eq_some_iff.mp hfound
    obtain rfl : name = key := by simpa [isFor, hentry] using hfor
    refine ⟨before, entry, after, hsplit, entry?_eq_some_iff.mp hentry, ?_⟩
    exact fun later hlater other hsets => hafter later hlater (isFor_iff.mpr ⟨other, hsets⟩)
  · rintro ⟨before, entry, after, hsplit, hsets, hafter⟩
    refine ⟨(key, value), Option.bind_eq_some_iff.mpr ⟨entry, ?_, entry?_eq_some_iff.mpr hsets⟩, rfl⟩
    refine find?_reverse_eq_some_iff.mpr ⟨isFor_iff.mpr ⟨value, hsets⟩, before, after, hsplit, ?_⟩
    intro later hlater hfor
    obtain ⟨other, hother⟩ := isFor_iff.mp hfor
    exact hafter later hlater other hother

-- ---------------------------------------------------------------------------
-- Joining
-- ---------------------------------------------------------------------------

theorem entries_append_cons {separator : Char} (h : isSeparator separator = true)
    (first second : List Char) :
    entries (first ++ separator :: second) = entries first ++ entries second := by
  simp [entries, Text.pieces_append_cons h]

def join (first : String) (separator : Char) (second : String) : String :=
  first ++ String.singleton separator ++ second

theorem parse_join {separator : Char} (h : isSeparator separator = true) (first second : String) :
    parse (join first separator second) = (parse first).update (parse second) := by
  have hentries : entries (join first separator second).toList =
      entries first.toList ++ entries second.toList := by
    rw [← entries_append_cons h]
    simp [join]
  rw [parse, hentries, OrderedMap.ofList, OrderedMap.insertAll_append]
  exact (OrderedMap.update_ofList (nodup_keys_parse first) _).symm

theorem get?_parse_join {separator : Char} (h : isSeparator separator = true)
    (first second key : String) :
    (parse (join first separator second)).get? key =
      ((parse second).get? key).or ((parse first).get? key) := by
  rw [parse_join h, OrderedMap.get?_update (nodup_keys_parse second)]

end Parameter

-- ---------------------------------------------------------------------------
-- Targets
-- ---------------------------------------------------------------------------

namespace Target

/-- The target that a parameter asks for: the last value given for it in lower case, and `ts` when
there is none or it is empty. -/
def asked (parameter : Option String) : String :=
  match (Parameter.entries (parameter.getD "").toList).reverse.find? (·.1 = "target") with
  | none => "ts"
  | some entry => if entry.2 = "" then "ts" else Text.lower entry.2

theorem ofParameter_eq (parameter : Option String) :
    ofParameter parameter = ofName (asked parameter) := by
  unfold ofParameter asked
  rw [Parameter.parse, OrderedMap.get?_ofList]
  cases (Parameter.entries (parameter.getD "").toList).reverse.find? (·.1 = "target") with
  | none => rfl
  | some entry =>
    by_cases hempty : entry.2 = "" <;> simp [hempty, ofName]

theorem ofName_eq_ok {name : String} {target : Target} :
    ofName name = .ok target ↔ target.name = name := by
  unfold ofName
  cases target <;> grind [Target.name]

theorem name_mem (target : Target) : target.name ∈ ["ts", "js"] := by
  cases target <;> decide

theorem ofName_eq_error {name : String} {failure : Failure} :
    ofName name = .error failure ↔ name ∉ ["ts", "js"] ∧ failure = .unsupportedTarget name := by
  unfold ofName
  grind

theorem ofParameter_congr {first second : String}
    (h : (Parameter.parse first).get? "target" = (Parameter.parse second).get? "target") :
    ofParameter (some first) = ofParameter (some second) := by
  simp only [ofParameter, Option.getD_some, h]

theorem ofParameter_eq_error_iff {parameter : String} {failure : Failure} :
    ofParameter (some parameter) = .error failure ↔
      ∃ value, (Parameter.parse parameter).get? "target" = some value ∧ value ≠ "" ∧
        Text.lower value ∉ ["ts", "js"] ∧ failure = .unsupportedTarget (Text.lower value) := by
  rw [ofParameter, Option.getD_some]
  cases (Parameter.parse parameter).get? "target" with
  | none => simp
  | some value =>
    by_cases hempty : value = ""
    · simp [hempty]
    · simp only [hempty, if_false, ofName_eq_error]
      simp [hempty]

theorem ofParameter_join {separator : Char} (h : Parameter.isSeparator separator = true)
    (first second : String) :
    ofParameter (some (Parameter.join first separator second)) =
      if (Parameter.parse second).contains "target" then ofParameter (some second)
      else ofParameter (some first) := by
  have htarget := Parameter.get?_parse_join h first second "target"
  rw [OrderedMap.contains]
  cases hsecond : (Parameter.parse second).get? "target" with
  | some value =>
    rw [hsecond, Option.some_or] at htarget
    exact ofParameter_congr (htarget.trans hsecond.symm)
  | none =>
    rw [hsecond, Option.none_or] at htarget
    exact ofParameter_congr htarget

end Target

namespace Parameter

/-- Of two parameters that are joined the later one decides: its values are put on top of those of
the earlier one, and so is its target if it has one. A parameter is refused exactly when its last
target is none that there is, and an empty one stands for the default. -/
theorem parse_joined {separator : Char} (hseparator : separator ∈ [',', ';'])
    (first second : String) :
    parse (join first separator second) = (parse first).update (parse second) ∧
      (parse (join first separator second)).keys =
        ((parse first).keys ++ (parse second).keys).eraseDups ∧
      (∀ key, (parse (join first separator second)).get? key =
        ((parse second).get? key).or ((parse first).get? key)) ∧
      Target.ofParameter (some (join first separator second)) =
        (if (parse second).contains "target" then Target.ofParameter (some second)
        else Target.ofParameter (some first)) ∧
      ∀ parameter failure, Target.ofParameter (some parameter) = .error failure ↔
        ∃ value, SetsLast parameter "target" value ∧ value ≠ "" ∧
          Text.lower value ∉ ["ts", "js"] ∧ failure = .unsupportedTarget (Text.lower value) := by
  have h : isSeparator separator = true := by simpa [isSeparator] using hseparator
  refine ⟨parse_join h first second, ?_, get?_parse_join h first second,
    Target.ofParameter_join h first second, ?_⟩
  · rw [parse_join h, OrderedMap.keys_update (nodup_keys_parse first)]
  · intro parameter failure
    simp only [Target.ofParameter_eq_error_iff, get?_parse_eq_some_iff]

theorem parse_joined_refused :
    ';' ∈ [',', ';'] ∧
    (parse (join "verbose, Target = JS" ';' " TARGET=Py=3,, a=")).entries =
      [("verbose", "true"), ("target", "Py=3"), ("a", "")] ∧
    Target.ofParameter (some (join "verbose, Target = JS" ';' " TARGET=Py=3,, a=")) =
      .error (.unsupportedTarget "py=3") := by
  obtain ⟨hparse, -, -, htarget, -⟩ := parse_joined (show ';' ∈ [',', ';'] by decide)
    "verbose, Target = JS" " TARGET=Py=3,, a="
  refine ⟨by decide, ?_, ?_⟩
  · rw [hparse]
    decide +kernel
  · rw [htarget]
    decide +kernel

-- ---------------------------------------------------------------------------
-- Writing
-- ---------------------------------------------------------------------------

inductive Separator where
  | comma
  | semicolon
  deriving Repr, DecidableEq

def Separator.char : Separator → Char
  | comma => ','
  | semicolon => ';'

/-- A part of a parameter that can be written between separators: a key with a value, a word, or
nothing but blanks. -/
inductive Part where
  | pair (key value : String) (hkey : ∀ c ∈ [',', ';', '='], c ∉ key.toList)
    (hvalue : ∀ c ∈ [',', ';'], c ∉ value.toList)
  | word (text : String) (htext : ∀ c ∈ [',', ';', '='], c ∉ text.toList)
    (hseen : ∃ c ∈ text.toList, Text.isBlank c = false)
  | blank (text : String) (hblank : ∀ c ∈ text.toList, Text.isBlank c = true)

namespace Part

def chars : Part → List Char
  | pair key value _ _ => key.toList ++ '=' :: value.toList
  | word text _ _ => text.toList
  | blank text _ => text.toList

def pair? : Part → Option (String × String)
  | pair key value _ _ => some (Text.lower (trim key.toList), trim value.toList)
  | word text _ _ => some (Text.lower (trim text.toList), "true")
  | blank _ _ => none

theorem entry?_chars (part : Part) : entry? part.chars = part.pair? := by
  cases part with
  | pair key value hkey _ => exact entry?_eq_some_iff.mpr (.pair _ (hkey '=' (by simp)))
  | word text htext hseen => exact entry?_eq_some_iff.mpr (.word (htext '=' (by simp)) hseen)
  | blank text hblank => exact entry?_blank hblank

theorem isSeparator_of_mem_chars {part : Part} {c : Char} (h : c ∈ part.chars) :
    isSeparator c = false := by
  have hnone : ∀ separator ∈ [',', ';'], separator ∉ part.chars := by
    intro separator hseparator
    cases part with
    | pair key value hkey hvalue =>
      have hequals : separator ≠ '=' := by rintro rfl; revert hseparator; decide
      have hmem : separator ∈ [',', ';', '='] := List.mem_append_left ['='] hseparator
      simp [chars, hkey separator hmem, hvalue separator hseparator, hequals]
    | word text htext _ => exact htext separator (List.mem_append_left ['='] hseparator)
    | blank text hblank =>
      intro hmem
      have hall : [',', ';'].all (fun c => !Text.isBlank c) = true := by decide
      simpa [hblank separator hmem] using List.all_eq_true.mp hall separator hseparator
  rw [isSeparator, Bool.or_eq_false_iff]
  exact ⟨beq_false_of_ne fun he => hnone ',' (by simp) (he ▸ h),
    beq_false_of_ne fun he => hnone ';' (by simp) (he ▸ h)⟩

end Part

def write (first : Part) (more : List (Separator × Part)) : String :=
  String.ofList (first.chars ++ more.flatMap fun next => next.1.char :: next.2.chars)

theorem pieces_write (first : Part) (more : List (Separator × Part)) :
    Text.pieces isSeparator (write first more).toList =
      first.chars :: more.map fun next => next.2.chars := by
  rw [write, String.toList_ofList]
  induction more generalizing first with
  | nil => simpa using Text.pieces_of_notMem fun c hc => Part.isSeparator_of_mem_chars hc
  | cons next more ih =>
    have hseparator : isSeparator next.1.char = true := by cases next.1 <;> decide
    rw [List.flatMap_cons, List.cons_append, Text.pieces_append_cons hseparator, ih next.2,
      Text.pieces_of_notMem fun c hc => Part.isSeparator_of_mem_chars hc]
    rfl

def pairs (first : Part) (more : List (Separator × Part)) : List (String × String) :=
  (first :: more.map Prod.snd).filterMap Part.pair?

theorem entries_write (first : Part) (more : List (Separator × Part)) :
    entries (write first more).toList = pairs first more := by
  have hpieces : Text.pieces isSeparator (write first more).toList =
      (first :: more.map Prod.snd).map Part.chars := by
    simp [pieces_write]
  have hentry : entry? ∘ Part.chars = Part.pair? := funext Part.entry?_chars
  rw [entries, hpieces, List.filterMap_map, hentry, pairs]

/-- What is written is read back, whatever separates the parts: the pairs are inserted one after the
other, so that a key keeps its first place and has its last value. -/
theorem parse_write (first : Part) (more : List (Separator × Part)) :
    parse (write first more) =
        (pairs first more).foldl (fun map pair => map.insert pair.1 pair.2) .empty ∧
      (parse (write first more)).keys = ((pairs first more).map Prod.fst).eraseDups ∧
      ∀ key, (parse (write first more)).get? key =
        ((pairs first more).reverse.find? (·.1 = key)).map Prod.snd := by
  have hparse : parse (write first more) = OrderedMap.ofList (pairs first more) := by
    rw [parse, entries_write]
  rw [hparse]
  exact ⟨rfl, OrderedMap.keys_ofList _, OrderedMap.get?_ofList _⟩

end Parameter

end SchemaGen
