import Mathlib.Data.List.Forall2
import SchemaGen.Options.Declaration
import SchemaGen.Proofs.Descriptor.LevelOrder

/-!
# Option declarations in their order

What `Declaration.ofFiles` finds: one declaration for each option extension at any place of a file,
in the order of the places. It is also what a search finds that keeps a queue of messages.
-/

namespace SchemaGen.Options

open Descriptor (File Message Field Located descend? qualify)

-- ---------------------------------------------------------------------------
-- Option extensions
-- ---------------------------------------------------------------------------

/-- The extensions that carry options: which message they extend, their names, and their roles. -/
inductive IsOption : String → String → Role → Prop
  | unique : IsOption "google.protobuf.FieldOptions" "mongoose_unique" (.flag .unique)
  | required : IsOption "google.protobuf.FieldOptions" "mongoose_required" (.flag .required)
  | index : IsOption "google.protobuf.FieldOptions" "mongoose_index" (.flag .index)
  | collection : IsOption "google.protobuf.MessageOptions" "mongoose_collection" .collection

theorem Role.of?_eq_some_iff {extended name : String} {role : Role} :
    Role.of? extended name = some role ↔ IsOption extended name role := by
  constructor
  · intro h
    have hnamed := List.find?_some h
    simp only [Bool.and_eq_true, beq_iff_eq] at hnamed
    obtain ⟨rfl, rfl⟩ := hnamed
    cases role with
    | flag flag =>
      cases flag with
      | unique => exact .unique
      | required => exact .required
      | index => exact .index
    | collection => exact .collection
  · intro h
    cases h <;> rfl

theorem IsOption.name_ne {extended name : String} {role : Role}
    (h : IsOption extended name role) : name ≠ "" := by
  cases h <;> simp

theorem IsOption.head?_ne {extended name : String} {role : Role}
    (h : IsOption extended name role) : extended.toList.head? ≠ some '.' := by
  cases h <;> decide

theorem stripDot_eq_iff {reference target : String} (h : target.toList.head? ≠ some '.') :
    Names.stripDot reference = target ↔ reference = target ∨ reference = "." ++ target := by
  have hdotted : reference = "." ++ target ↔ reference.toList = '.' :: target.toList := by
    rw [← String.toList_inj, String.toList_append]
    rfl
  unfold Names.stripDot
  split
  · next rest hrest =>
    have hother : reference ≠ target := by
      rintro rfl
      simp [hrest] at h
    rw [or_iff_right hother, hdotted, hrest, ← String.toList_inj]
    simp
  · next hplain =>
    have hother : ¬ reference = "." ++ target := fun heq => hplain _ (hdotted.mp heq)
    rw [or_iff_left hother]

def packageNames (file : File) : List String :=
  if file.packageText = "" then [] else [file.packageText]

theorem foldl_qualify (scope : String) (names : List String) (h : scope ≠ "") :
    names.foldl qualify scope = ".".intercalate (scope :: names) := by
  induction names generalizing scope with
  | nil => simp
  | cons name more ih =>
    have hlonger : qualify scope name = scope ++ ("." ++ name) := by
      simp [qualify, h, String.append_assoc]
    rw [List.foldl_cons, hlonger, ih _ (by simp [h]), String.intercalate_cons_append,
      String.intercalate_cons_append, String.intercalate_cons_cons, String.append_assoc]

theorem scopeOf_eq_intercalate (file : File) {names : List String} (h : ∀ name ∈ names, name ≠ "") :
    file.scopeOf names = ".".intercalate (packageNames file ++ names) := by
  unfold File.scopeOf packageNames
  split
  · next hnone =>
    cases names with
    | nil => simp [hnone]
    | cons name more =>
      have hname : name ≠ "" := h name (by simp)
      rw [List.foldl_cons, hnone, qualify, if_pos rfl, foldl_qualify name more hname]
      rfl
  · next hsome => exact foldl_qualify _ names hsome

structure Declares (file : File) (around : List Message) (field : Field)
    (declaration : Declaration) : Prop where
  fileName : declaration.fileName = file.nameText
  fullName : declaration.fullName = file.scopeOf (around.map Message.nameText ++ [field.nameText])
  dotted : (∀ message ∈ around, message.nameText ≠ "") → declaration.fullName =
    ".".intercalate (packageNames file ++ around.map Message.nameText ++ [field.nameText])
  option : ∃ extended, (field.extendeeText = extended ∨ field.extendeeText = "." ++ extended) ∧
    IsOption extended field.nameText declaration.role

theorem Declares.of_option {file : File} {around : List Message} {field : Field}
    {extended : String} {role : Role} (hoption : IsOption extended field.nameText role)
    (hextended : field.extendeeText = extended ∨ field.extendeeText = "." ++ extended) :
    Declares file around field
      ⟨file.nameText, file.scopeOf (around.map Message.nameText ++ [field.nameText]), role⟩ where
  fileName := rfl
  fullName := rfl
  dotted := by
    intro hnames
    rw [List.append_assoc]
    apply scopeOf_eq_intercalate
    simp only [List.mem_append, List.mem_map, List.mem_singleton]
    rintro name (⟨message, hmessage, rfl⟩ | rfl)
    · exact hnames message hmessage
    · exact hoption.name_ne
  option := ⟨extended, hextended, hoption⟩

theorem ofExtension?_eq_some_iff {file : File} {around : List Message} {field : Field}
    {declaration : Declaration} :
    Declaration.ofExtension? file.nameText (file.scopeOf (around.map Message.nameText)) field =
        some declaration ↔ Declares file around field declaration := by
  have hscope : qualify (file.scopeOf (around.map Message.nameText)) field.nameText =
      file.scopeOf (around.map Message.nameText ++ [field.nameText]) := by
    simp [File.scopeOf]
  simp only [Declaration.ofExtension?, Option.map_eq_some_iff, Role.of?_eq_some_iff, hscope]
  constructor
  · rintro ⟨role, hoption, rfl⟩
    exact .of_option hoption ((stripDot_eq_iff hoption.head?_ne).mp rfl)
  · rintro ⟨hfile, hfull, _, extended, hextended, hoption⟩
    refine ⟨declaration.role, ?_, ?_⟩
    · rwa [(stripDot_eq_iff hoption.head?_ne).mpr hextended]
    · rw [← hfull, ← hfile]

-- ---------------------------------------------------------------------------
-- Places
-- ---------------------------------------------------------------------------

/-- Where an extension stands: at the end of a way into the file, under a position. -/
structure Place where
  way : List Nat
  position : Nat

/-- Extensions outside messages come first. Those inside follow by depth and from left to right, and
those of one message by position. -/
def Place.Before (place other : Place) : Prop :=
  List.Shortlex (· < ·) place.way other.way ∨
    place.way = other.way ∧ place.position < other.position

def extensionsIn (file : File) (chain : List Message) : List Field :=
  (chain.getLast?.map Message.extensions).getD file.extensions

theorem scopedExtensions_eq (file : File) :
    file.scopedExtensions = ([] :: file.allMessages.map Located.chain).flatMap fun chain =>
      (extensionsIn file chain).map fun field =>
        (file.scopeOf (chain.map Message.nameText), field) := by
  simp [File.scopedExtensions, extensionsIn, List.flatMap_map, Located.chain, Located.path,
    File.scopeOf]

def DeclaredAt (file : File) (place : Place) (declaration : Declaration) : Prop :=
  ∃ chain field, descend? file.messages place.way = some chain ∧
    (extensionsIn file chain)[place.position]? = some field ∧ Declares file chain field declaration

/-- The declarations of a file as they stand in it: one for each place that has one, in the order
of the places. -/
def InPlace (file : File) (declarations : List Declaration) : Prop :=
  ∃ placed : List (Place × Declaration), placed.map Prod.snd = declarations ∧
    (placed.Pairwise fun entry other => entry.1.Before other.1) ∧
    ∀ place declaration, (place, declaration) ∈ placed ↔ DeclaredAt file place declaration

def declaredAlong (file : File) (along : List Nat × List Message) : List (Place × Declaration) :=
  (extensionsIn file along.2).zipIdx.filterMap fun entry =>
    (Declaration.ofExtension? file.nameText (file.scopeOf (along.2.map Message.nameText))
      entry.1).map fun declaration => (⟨along.1, entry.2⟩, declaration)

theorem mem_declaredAlong {file : File} {along : List Nat × List Message} {place : Place}
    {declaration : Declaration} :
    (place, declaration) ∈ declaredAlong file along ↔ place.way = along.1 ∧
      ∃ field, (extensionsIn file along.2)[place.position]? = some field ∧
        Declares file along.2 field declaration := by
  simp only [declaredAlong, List.mem_filterMap, Option.map_eq_some_iff, ofExtension?_eq_some_iff,
    Prod.exists, List.mem_zipIdx_iff_getElem?, Prod.mk.injEq]
  constructor
  · rintro ⟨field, position, hfield, _, hdeclares, rfl, rfl⟩
    exact ⟨rfl, field, hfield, hdeclares⟩
  · rintro ⟨hway, field, hfield, hdeclares⟩
    exact ⟨field, place.position, hfield, declaration, hdeclares, by rw [← hway], rfl⟩

theorem sorted_declaredAlong (file : File) (along : List Nat × List Message) :
    (declaredAlong file along).Pairwise fun entry other => entry.1.Before other.1 := by
  have hpositions : ((extensionsIn file along.2).zipIdx.map Prod.snd).Pairwise (· < ·) := by
    rw [List.zipIdx_map_snd]
    exact List.pairwise_lt_range'
  rw [List.pairwise_map] at hpositions
  rw [declaredAlong, List.pairwise_filterMap]
  apply hpositions.imp
  intro entry other hlt placed hplaced placed' hplaced'
  obtain ⟨_, _, rfl⟩ := Option.map_eq_some_iff.mp hplaced
  obtain ⟨_, _, rfl⟩ := Option.map_eq_some_iff.mp hplaced'
  exact .inr ⟨rfl, hlt⟩

theorem map_snd_declaredAlong (file : File) (along : List Nat × List Message) :
    (declaredAlong file along).map Prod.snd = (extensionsIn file along.2).filterMap
      (Declaration.ofExtension? file.nameText (file.scopeOf (along.2.map Message.nameText))) := by
  rw [← List.zipIdx_map_fst 0 (extensionsIn file along.2), declaredAlong, List.map_filterMap,
    List.filterMap_map]
  simp [Function.comp_def]

theorem inPlace_ofFile (file : File) : InPlace file (Declaration.ofFile file) := by
  obtain ⟨ways, hways, horder⟩ := file.exists_inLevelOrder
  refine ⟨ways.flatMap (declaredAlong file), ?_, ?_, ?_⟩
  · rw [Declaration.ofFile, scopedExtensions_eq, ← hways]
    simp [List.map_flatMap, List.flatMap_map, List.filterMap_flatMap, List.filterMap_map,
      map_snd_declaredAlong]
  · rw [List.pairwise_flatMap]
    refine ⟨fun along _ => sorted_declaredAlong file along, ?_⟩
    apply horder.sorted.imp
    rintro along other hshorter ⟨place, _⟩ hplace ⟨place', _⟩ hplace'
    obtain ⟨hway, _⟩ := mem_declaredAlong.mp hplace
    obtain ⟨hway', _⟩ := mem_declaredAlong.mp hplace'
    exact .inl (by rwa [hway, hway'])
  · intro place declaration
    simp only [List.mem_flatMap, mem_declaredAlong, Prod.exists, horder.mem_iff]
    constructor
    · rintro ⟨way, chain, ⟨_, hchain⟩, rfl, field, hfield, hdeclares⟩
      exact ⟨chain, field, hchain, hfield, hdeclares⟩
    · rintro ⟨chain, field, hchain, hfield, hdeclares⟩
      exact ⟨place.way, chain, ⟨Nat.zero_le _, hchain⟩, rfl, field, hfield, hdeclares⟩

-- ---------------------------------------------------------------------------
-- The search with a queue
-- ---------------------------------------------------------------------------

theorem sum_sizeOf_nested_lt (message : Message) :
    (message.nested.map fun inner => sizeOf inner).sum < sizeOf message := by
  have hsum : ∀ messages : List Message,
      (messages.map fun inner => sizeOf inner).sum ≤ sizeOf messages := by
    intro messages
    induction messages with
    | nil => simp
    | cons message more ih => simp; omega
  have hnested := hsum message.nested
  have hsmaller : sizeOf message.nested < sizeOf message := by
    cases message
    simp
    omega
  omega

/-- The scopes in messages that wait, each with the scope around it. The first one is searched, and
the messages inside it join the others at the end. -/
def search : List (String × Message) → List (String × List Field)
  | [] => []
  | (around, message) :: waiting =>
    let scope := qualify around message.nameText
    (scope, message.extensions) ::
      search (waiting ++ message.nested.map fun inner => (scope, inner))
termination_by waiting => (waiting.map fun entry => sizeOf entry.2).sum
decreasing_by
  have hnested := sum_sizeOf_nested_lt message
  simp only [List.map_append, List.map_map, Function.comp_def, List.sum_append, List.map_cons,
    List.sum_cons, List.map_subtype, List.unattach_attach]
  omega

def found (file : File) : List Declaration :=
  ((file.packageText, file.extensions) ::
    search (file.messages.map fun message => (file.packageText, message))).flatMap fun entry =>
      entry.2.filterMap (Declaration.ofExtension? file.nameText entry.1)

/-- The messages in front are searched before any message inside them. -/
theorem search_append (first later : List (String × Message)) :
    search (first ++ later) =
      first.map (fun entry => (qualify entry.1 entry.2.nameText, entry.2.extensions)) ++
        search (later ++ first.flatMap fun entry => entry.2.nested.map fun inner =>
          (qualify entry.1 entry.2.nameText, inner)) := by
  induction first generalizing later with
  | nil => simp
  | cons entry first ih =>
    rw [List.cons_append, search, List.append_assoc, ih]
    simp

/-- The search goes through a level and then through those below it. -/
theorem search_eq_levels (file : File) (located : List Located) :
    search (located.map fun located =>
        (file.scopeOf (located.around.map Message.nameText), located.message)) =
      (Located.levels located).flatten.map fun located =>
        (file.scopeOf located.path, located.message.extensions) := by
  have hscope : ∀ located : Located, qualify (file.scopeOf (located.around.map Message.nameText))
      located.message.nameText = file.scopeOf located.path := by
    intro located
    simp [File.scopeOf, Located.path]
  induction located using Located.level_induction with
  | empty => simp [search, Located.levels]
  | next located ih =>
    rw [Located.flatten_levels, List.map_append, ← ih, ← List.append_nil (List.map _ located),
      search_append]
    simp [hscope, List.flatMap_map, List.map_flatMap, Located.inside, Located.chain, Located.path,
      Function.comp_def]

theorem found_eq_ofFile : found = Declaration.ofFile := by
  funext file
  have hmessages := search_eq_levels file (file.messages.map fun message => ⟨[], message⟩)
  rw [Located.levels_map, List.map_map] at hmessages
  have hsearch : search (file.messages.map fun message => (file.packageText, message)) =
      file.allMessages.map fun located =>
        (file.scopeOf located.path, located.message.extensions) := hmessages
  simp [found, hsearch, Declaration.ofFile, File.scopedExtensions, List.flatMap_map,
    List.filterMap_flatMap, List.filterMap_map]

/-- The declarations of files are found file by file, in each of them one for every option extension
at any depth, in level order. -/
theorem ofFiles_inPlace (files others : List File) :
    (∃ parts, parts.flatten = Declaration.ofFiles files ∧ List.Forall₂ InPlace files parts) ∧
      Declaration.ofFiles files = files.flatMap found ∧
      Declaration.ofFiles (files ++ others) =
        Declaration.ofFiles files ++ Declaration.ofFiles others := by
  refine ⟨⟨files.map Declaration.ofFile, ?_, ?_⟩, ?_, ?_⟩
  · rfl
  · rw [List.forall₂_map_right_iff, List.forall₂_same]
    exact fun file _ => inPlace_ofFile file
  · simp [Declaration.ofFiles, found_eq_ofFile]
  · exact List.flatMap_append

end SchemaGen.Options
