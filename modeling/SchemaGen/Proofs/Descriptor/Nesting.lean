import SchemaGen.Proofs.Descriptor.LevelOrder

/-!
# Messages inside others

`StandsIn` says of a message which ones stand around it, without an order among the messages of a
file. `File.allMessages` and `File.innerMessages` hold exactly the messages that stand somewhere in
the file, and those of them that stand inside another one.
-/

namespace SchemaGen.Descriptor

/-- A message stands among some messages or inside them, with others around it, the outermost
first. -/
inductive StandsIn : List Message → List Message → Message → Prop
  | outermost {messages : List Message} {message : Message} (mem : message ∈ messages) :
      StandsIn messages [] message
  | inside {messages around : List Message} {outer message : Message} (mem : outer ∈ messages)
      (rest : StandsIn outer.nested around message) : StandsIn messages (outer :: around) message

namespace StandsIn

theorem nil_iff {messages : List Message} {message : Message} :
    StandsIn messages [] message ↔ message ∈ messages := by
  constructor
  · rintro ⟨hmem⟩
    exact hmem
  · exact .outermost

theorem cons_iff {messages around : List Message} {outer message : Message} :
    StandsIn messages (outer :: around) message ↔
      outer ∈ messages ∧ StandsIn outer.nested around message := by
  constructor
  · rintro (_ | ⟨hmem, hrest⟩)
    exact ⟨hmem, hrest⟩
  · rintro ⟨hmem, hrest⟩
    exact .inside hmem hrest

theorem of_descend? {messages chain : List Message} {way : List Nat}
    (h : descend? messages way = some chain) {message : Message} (hmessage : message ∈ chain) :
    ∃ around, StandsIn messages around message := by
  induction way generalizing messages chain with
  | nil =>
    cases h
    simp at hmessage
  | cons position way ih =>
    simp only [descend?, Option.bind_eq_some_iff, Option.map_eq_some_iff] at h
    obtain ⟨first, hfirst, rest, hrest, rfl⟩ := h
    have hmem := List.mem_of_getElem? hfirst
    rcases List.mem_cons.mp hmessage with rfl | hmessage
    · exact ⟨[], .outermost hmem⟩
    · obtain ⟨around, haround⟩ := ih hrest hmessage
      exact ⟨first :: around, .inside hmem haround⟩

end StandsIn

namespace Located

theorem mem_inside {outer located : Located} :
    located ∈ outer.inside ↔
      located.message ∈ outer.message.nested ∧ located.around = outer.chain := by
  obtain ⟨around, message⟩ := located
  simp [inside, eq_comm, and_comm]

def Below (start : List Located) (located : Located) : Prop :=
  ∃ outer ∈ start, ∃ inner, StandsIn outer.message.nested inner located.message ∧
    located.around = outer.chain ++ inner

theorem below_iff {start : List Located} {located : Located} :
    Below start located ↔ located ∈ start.flatMap inside ∨ Below (start.flatMap inside) located := by
  constructor
  · rintro ⟨outer, houter, inner, hstands, haround⟩
    cases hstands with
    | outermost hmem =>
      left
      exact List.mem_flatMap.mpr ⟨outer, houter, mem_inside.mpr ⟨hmem, by simpa using haround⟩⟩
    | @inside _ inner first _ hmem hrest =>
      right
      refine ⟨⟨outer.chain, first⟩, List.mem_flatMap.mpr ⟨outer, houter, ?_⟩, inner, hrest, ?_⟩
      · exact mem_inside.mpr ⟨hmem, rfl⟩
      · simpa [chain] using haround
  · rintro (hlocated | ⟨next, hnext, inner, hstands, haround⟩)
    · obtain ⟨outer, houter, hinside⟩ := List.mem_flatMap.mp hlocated
      obtain ⟨hmem, haround⟩ := mem_inside.mp hinside
      exact ⟨outer, houter, [], .outermost hmem, by simpa using haround⟩
    · obtain ⟨outer, houter, hinside⟩ := List.mem_flatMap.mp hnext
      obtain ⟨hmem, hchain⟩ := mem_inside.mp hinside
      refine ⟨outer, houter, next.message :: inner, .inside hmem hstands, ?_⟩
      rw [haround, chain, hchain]
      simp

theorem mem_levels_iff_below (start : List Located) (located : Located) :
    located ∈ (levels (start.flatMap inside)).flatten ↔ Below start located := by
  induction start using level_induction with
  | empty => simp [levels, Below]
  | next start ih => rw [flatten_levels, List.mem_append, ih, ← below_iff]

theorem drop_levels (start : List Located) :
    (levels start).drop 1 = levels (start.flatMap inside) := by
  cases start with
  | nil => rfl
  | cons located more => rw [levels_cons, List.drop_one, List.tail_cons]

end Located

namespace File

theorem levels_eq (file : File) :
    file.levels = Located.levels (file.messages.map fun message => ⟨[], message⟩) := by
  rw [levels, Located.levels_map]

theorem mem_innerMessages {file : File} {located : Located} :
    located ∈ file.innerMessages ↔
      StandsIn file.messages located.around located.message ∧ located.around ≠ [] := by
  rw [innerMessages, levels_eq, Located.drop_levels, Located.mem_levels_iff_below]
  constructor
  · rintro ⟨_, houter, inner, hstands, haround⟩
    obtain ⟨outer, hmem, rfl⟩ := List.mem_map.mp houter
    simp only [Located.chain, List.nil_append, List.singleton_append] at haround
    rw [haround]
    exact ⟨.inside hmem hstands, by simp⟩
  · rintro ⟨hstands, hsome⟩
    obtain ⟨outer, inner, haround⟩ := List.exists_cons_of_ne_nil hsome
    rw [haround, StandsIn.cons_iff] at hstands
    refine ⟨⟨[], outer⟩, List.mem_map_of_mem hstands.1, inner, hstands.2, ?_⟩
    simpa [Located.chain] using haround

theorem mem_allMessages {file : File} {located : Located} :
    located ∈ file.allMessages ↔ StandsIn file.messages located.around located.message := by
  have hsplit : file.allMessages =
      (file.messages.map fun message => ⟨[], message⟩) ++ file.innerMessages := by
    rw [allMessages, innerMessages, levels_eq, Located.flatten_levels, Located.drop_levels]
  obtain ⟨around, message⟩ := located
  rw [hsplit, List.mem_append, mem_innerMessages]
  cases around with
  | nil => simp [StandsIn.nil_iff]
  | cons outer around => simp

end File

end SchemaGen.Descriptor
