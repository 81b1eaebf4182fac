import Mathlib.Data.List.Induction
import Mathlib.Data.List.Shortlex
import SchemaGen.Descriptor.Traversal

/-!
# Level order

The messages of a file come by depth, and within a level from left to right. Here this is said of the
positions: a way into a file is a list of positions, one per level, and `File.levels` runs through the
ways from short to long, those of one length in lexicographic order.
-/

namespace SchemaGen.Descriptor

theorem joinLevels_nil {α : Type} (levels : List (List α)) : joinLevels levels [] = levels := by
  cases levels <;> rfl

theorem joinLevels_assoc {α : Type} (first second third : List (List α)) :
    joinLevels (joinLevels first second) third = joinLevels first (joinLevels second third) := by
  induction first generalizing second third with
  | nil => rfl
  | cons level more ih =>
    cases second with
    | nil => rfl
    | cons level' more' =>
      cases third with
      | nil => rfl
      | cons level'' more'' => simp [joinLevels, ih]

namespace Located

def chain (located : Located) : List Message := located.around ++ [located.message]

def inside (located : Located) : List Located :=
  located.message.nested.map fun message => ⟨located.chain, message⟩

def levels : List Located → List (List Located)
  | [] => []
  | located :: more => joinLevels (located.message.levels located.around) (levels more)

theorem levels_map (around : List Message) (messages : List Message) :
    levels (messages.map fun message => ⟨around, message⟩) = Message.levelsAll around messages := by
  induction messages with
  | nil => rfl
  | cons message more ih => rw [List.map_cons, levels, ih, Message.levelsAll]

theorem levels_append (first second : List Located) :
    levels (first ++ second) = joinLevels (levels first) (levels second) := by
  induction first with
  | nil => rfl
  | cons located more ih => rw [List.cons_append, levels, ih, levels, joinLevels_assoc]

theorem levels_message (located : Located) :
    located.message.levels located.around = [located] :: levels located.inside := by
  obtain ⟨around, message⟩ := located
  cases message
  rw [inside, levels_map]
  rfl

theorem levels_cons (located : Located) (more : List Located) :
    levels (located :: more) = (located :: more) :: levels ((located :: more).flatMap inside) := by
  induction more generalizing located with
  | nil => simp [levels, levels_message, joinLevels_nil]
  | cons next more ih =>
    rw [levels, levels_message, ih next, joinLevels, ← levels_append]
    rfl

theorem flatten_levels (located : List Located) :
    (levels located).flatten = located ++ (levels (located.flatMap inside)).flatten := by
  cases located with
  | nil => rfl
  | cons located more => rw [levels_cons, List.flatten_cons]

/-- What holds of the level below a level, and of no messages at all, holds of every level. -/
theorem level_induction {motive : List Located → Prop} (empty : motive [])
    (next : ∀ located, motive (located.flatMap inside) → motive located)
    (located : List Located) : motive located := by
  -- one level less each time
  induction hlength : (levels located).length generalizing located with
  | zero =>
    cases located with
    | nil => exact empty
    | cons located more => simp [levels_cons] at hlength
  | succ length ih =>
    cases located with
    | nil => exact empty
    | cons located more =>
      apply next
      apply ih
      simpa [levels_cons] using hlength

end Located

-- ---------------------------------------------------------------------------
-- Ways
-- ---------------------------------------------------------------------------

/-- The messages met on a way of positions, the outermost first. -/
def descend? : List Message → List Nat → Option (List Message)
  | _, [] => some []
  | messages, position :: way =>
    messages[position]?.bind fun message => (descend? message.nested way).map (message :: ·)

def under (messages chain : List Message) : List Message :=
  (chain.getLast?.map Message.nested).getD messages

@[simp] theorem under_append (messages chain : List Message) (message : Message) :
    under messages (chain ++ [message]) = message.nested := by
  simp [under]

theorem under_cons (messages chain : List Message) (message : Message) :
    under messages (message :: chain) = under message.nested chain := by
  cases chain using List.reverseRecOn with
  | nil => rfl
  | append_singleton chain last => rw [← List.cons_append, under_append, under_append]

theorem descend?_append (messages : List Message) (way : List Nat) (position : Nat) :
    descend? messages (way ++ [position]) = (descend? messages way).bind fun chain =>
      (under messages chain)[position]?.map fun message => chain ++ [message] := by
  induction way generalizing messages with
  | nil => cases hmessage : messages[position]? <;> simp [descend?, under, hmessage]
  | cons first way ih =>
    rw [List.cons_append, descend?, descend?]
    cases messages[first]? with
    | none => rfl
    | some message =>
      simp only [Option.bind_some, ih]
      cases descend? message.nested way with
      | none => rfl
      | some chain => simp [under_cons, Function.comp_def]

theorem descend?_eq_some_append_iff {messages chain : List Message} {way : List Nat}
    {position : Nat} :
    descend? messages (way ++ [position]) = some chain ↔
      ∃ outer message, descend? messages way = some outer ∧
        (under messages outer)[position]? = some message ∧ chain = outer ++ [message] := by
  rw [descend?_append]
  simp only [Option.bind_eq_some_iff, Option.map_eq_some_iff]
  grind

theorem descend?_of_take {messages chain : List Message} {way : List Nat}
    (h : descend? messages way = some chain) (length : Nat) :
    ∃ outer, descend? messages (way.take length) = some outer := by
  induction way using List.reverseRecOn generalizing chain with
  | nil => exact ⟨chain, by simpa using h⟩
  | append_singleton way position ih =>
    by_cases hlength : length ≤ way.length
    · obtain ⟨outer, _, houter, _⟩ := descend?_eq_some_append_iff.mp h
      rw [List.take_append_of_le_length hlength]
      exact ih houter
    · rw [List.take_of_length_le (by simp; omega)]
      exact ⟨chain, h⟩

/-- The ways one position beyond a way, with the chains at their ends. -/
def onward (messages : List Message) (place : List Nat × List Message) :
    List (List Nat × List Message) :=
  (under messages place.2).zipIdx.map fun entry => (place.1 ++ [entry.2], place.2 ++ [entry.1])

theorem mem_onward {messages chain : List Message} {way : List Nat}
    {place : List Nat × List Message} :
    (way, chain) ∈ onward messages place ↔ ∃ position message,
      (under messages place.2)[position]? = some message ∧ way = place.1 ++ [position] ∧
        chain = place.2 ++ [message] := by
  simp only [onward, List.mem_map, List.mem_zipIdx_iff_getElem?, Prod.exists, Prod.mk.injEq]
  grind

/-- All ways of one length, from left to right. -/
structure IsLevel (messages : List Message) (depth : Nat)
    (places : List (List Nat × List Message)) : Prop where
  sorted : places.Pairwise fun place other => List.Lex (· < ·) place.1 other.1
  mem_iff : ∀ way chain, (way, chain) ∈ places ↔
    way.length = depth ∧ descend? messages way = some chain

theorem isLevel_zero (messages : List Message) : IsLevel messages 0 [([], [])] where
  sorted := by simp
  mem_iff way chain := by
    constructor
    · intro hmem
      simp_all [descend?]
    · rintro ⟨hlength, hchain⟩
      obtain rfl := List.length_eq_zero_iff.mp hlength
      simpa [descend?, eq_comm] using hchain

theorem lex_append {way other : List Nat} (h : List.Lex (· < ·) way other)
    (hlength : way.length = other.length) (position next : Nat) :
    List.Lex (· < ·) (way ++ [position]) (other ++ [next]) := by
  induction h with
  | nil => simp at hlength
  | cons _ ih => exact .cons (ih (by simpa using hlength))
  | rel hlt => exact .rel hlt

theorem sorted_onward (messages : List Message) (place : List Nat × List Message) :
    (onward messages place).Pairwise fun place other => List.Lex (· < ·) place.1 other.1 := by
  have hpositions : ((under messages place.2).zipIdx.map Prod.snd).Pairwise (· < ·) := by
    rw [List.zipIdx_map_snd]
    exact List.pairwise_lt_range'
  rw [List.pairwise_map] at hpositions
  rw [onward, List.pairwise_map]
  apply hpositions.imp
  intro entry other hlt
  exact List.Lex.append_left _ (.rel hlt) place.1

/-- The ways beyond those of one length are the ways of the next length, again from left to right. -/
theorem IsLevel.onward {messages : List Message} {depth : Nat}
    {places : List (List Nat × List Message)} (h : IsLevel messages depth places) :
    IsLevel messages (depth + 1) (places.flatMap (onward messages)) where
  sorted := by
    rw [List.pairwise_flatMap]
    refine ⟨fun place _ => sorted_onward messages place, ?_⟩
    apply h.sorted.imp_of_mem
    rintro ⟨first, outer⟩ ⟨second, outer'⟩ hfirst hsecond hlex ⟨way, chain⟩ hway ⟨other, chain'⟩ hother
    have hlength := ((h.mem_iff first outer).mp hfirst).1
    have hlength' := ((h.mem_iff second outer').mp hsecond).1
    obtain ⟨position, _, _, rfl, _⟩ := mem_onward.mp hway
    obtain ⟨next, _, _, rfl, _⟩ := mem_onward.mp hother
    exact lex_append hlex (hlength.trans hlength'.symm) position next
  mem_iff way chain := by
    simp only [List.mem_flatMap, mem_onward]
    constructor
    · rintro ⟨⟨first, outer⟩, hplace, position, message, hmessage, rfl, rfl⟩
      obtain ⟨hlength, houter⟩ := (h.mem_iff first outer).mp hplace
      refine ⟨by simp [hlength], ?_⟩
      exact descend?_eq_some_append_iff.mpr ⟨outer, message, houter, hmessage, rfl⟩
    · rintro ⟨hlength, hchain⟩
      cases way using List.reverseRecOn with
      | nil => simp at hlength
      | append_singleton way position =>
        obtain ⟨outer, message, houter, hmessage, rfl⟩ := descend?_eq_some_append_iff.mp hchain
        refine ⟨(way, outer), (h.mem_iff way outer).mpr ⟨by simpa using hlength, houter⟩, ?_⟩
        exact ⟨position, message, hmessage, rfl, rfl⟩

theorem IsLevel.shortlex {messages : List Message} {depth : Nat}
    {places : List (List Nat × List Message)} (h : IsLevel messages depth places) :
    places.Pairwise fun place other => List.Shortlex (· < ·) place.1 other.1 := by
  apply h.sorted.imp_of_mem
  rintro ⟨first, outer⟩ ⟨second, outer'⟩ hfirst hsecond hlex
  have hlength := ((h.mem_iff first outer).mp hfirst).1
  have hlength' := ((h.mem_iff second outer').mp hsecond).1
  exact .of_lex (hlength.trans hlength'.symm) hlex

/-- All ways of some length or more, from short to long and then from left to right. -/
structure InLevelOrder (messages : List Message) (depth : Nat)
    (places : List (List Nat × List Message)) : Prop where
  sorted : places.Pairwise fun place other => List.Shortlex (· < ·) place.1 other.1
  mem_iff : ∀ way chain, (way, chain) ∈ places ↔
    depth ≤ way.length ∧ descend? messages way = some chain

theorem IsLevel.inLevelOrder_nil {messages : List Message} {depth : Nat}
    (h : IsLevel messages depth []) : InLevelOrder messages depth [] where
  sorted := .nil
  mem_iff way chain := by
    constructor
    · simp
    · rintro ⟨hlength, hchain⟩
      obtain ⟨outer, houter⟩ := descend?_of_take hchain depth
      have hmem := (h.mem_iff (way.take depth) outer).mpr ⟨by simpa using hlength, houter⟩
      cases hmem

theorem IsLevel.append {messages : List Message} {depth : Nat}
    {places more : List (List Nat × List Message)} (h : IsLevel messages depth places)
    (hmore : InLevelOrder messages (depth + 1) more) :
    InLevelOrder messages depth (places ++ more) where
  sorted := by
    refine List.pairwise_append.mpr ⟨h.shortlex, hmore.sorted, ?_⟩
    rintro ⟨first, outer⟩ hfirst ⟨second, outer'⟩ hsecond
    have hlength := ((h.mem_iff first outer).mp hfirst).1
    have hlength' := ((hmore.mem_iff second outer').mp hsecond).1
    exact .of_length_lt (by simp only; omega)
  mem_iff way chain := by
    rw [List.mem_append, h.mem_iff, hmore.mem_iff]
    grind

theorem map_snd_onward (messages : List Message) (place : List Nat × List Message) :
    (onward messages place).map Prod.snd =
      (under messages place.2).map fun message => place.2 ++ [message] := by
  rw [← List.zipIdx_map_fst 0 (under messages place.2), onward, List.map_map, List.map_map]
  rfl

theorem map_snd_flatMap_onward (messages : List Message) {located : List Located}
    {places : List (List Nat × List Message)}
    (h : places.map Prod.snd = located.map Located.chain) :
    (places.flatMap (onward messages)).map Prod.snd =
      (located.flatMap Located.inside).map Located.chain := by
  calc (places.flatMap (onward messages)).map Prod.snd
      = (places.map Prod.snd).flatMap fun chain =>
          (under messages chain).map fun message => chain ++ [message] := by
        simp only [List.map_flatMap, List.flatMap_map, map_snd_onward]
    _ = (located.flatMap Located.inside).map Located.chain := by
        simp [h, List.map_flatMap, List.flatMap_map, Located.inside, Located.chain, Function.comp_def]

/-- The levels under some messages run through the ways to them and beyond in level order. -/
theorem exists_inLevelOrder (messages : List Message) (located : List Located) (depth : Nat)
    (places : List (List Nat × List Message)) (hlevel : IsLevel messages depth places)
    (hchains : places.map Prod.snd = located.map Located.chain) :
    ∃ all, all.map Prod.snd = (Located.levels located).flatten.map Located.chain ∧
      InLevelOrder messages depth all := by
  -- `places` are the ways to the level at hand, which the next step leads one position on
  induction located using Located.level_induction generalizing depth places with
  | empty =>
    obtain rfl : places = [] := by simpa using hchains
    exact ⟨[], rfl, hlevel.inLevelOrder_nil⟩
  | next located ih =>
    obtain ⟨more, hmore, horder⟩ := ih (depth + 1) (places.flatMap (onward messages)) hlevel.onward
      (map_snd_flatMap_onward messages hchains)
    refine ⟨places ++ more, ?_, hlevel.append horder⟩
    rw [Located.flatten_levels, List.map_append, List.map_append, hchains, hmore]

theorem File.exists_inLevelOrder (file : File) :
    ∃ all, all.map Prod.snd = [] :: file.allMessages.map Located.chain ∧
      InLevelOrder file.messages 0 all := by
  have hzero := isLevel_zero file.messages
  have hchains : (([([], [])] : List (List Nat × List Message)).flatMap
      (onward file.messages)).map Prod.snd =
        (file.messages.map fun message => (⟨[], message⟩ : Located)).map Located.chain := by
    simp [map_snd_onward, under, Located.chain, Function.comp_def]
  obtain ⟨all, hall, horder⟩ := Descriptor.exists_inLevelOrder file.messages _ 1 _ hzero.onward hchains
  refine ⟨([], []) :: all, ?_, hzero.append horder⟩
  rw [List.map_cons, hall, Located.levels_map]
  rfl

end SchemaGen.Descriptor
