import SchemaGen.Descriptor.Standard
import SchemaGen.Proofs.Descriptor.References
import SchemaGen.Proofs.Fallible

/-!
# The order in which a pool is filled

A file is added to a pool when all that it refers to is there, and what it refers to in full does
not change when more files are added. So whichever way the same files are added, the pool ends with
the same message types and extensions (`equivalent_of_perm`), and its schema reads alike
(`Equivalent.schema`).
-/

namespace SchemaGen.Descriptor.Pool

open Fallible

-- ---------------------------------------------------------------------------
-- Adding a file
-- ---------------------------------------------------------------------------

theorem add_eq_ok {pool after : Pool} {file : File} (h : pool.add file = .ok after) :
    ∃ dialect, file.dialect? = some dialect ∧ after = pool.enter dialect file ∧
      after.refusal? dialect file = none := by
  rw [add] at h
  split at h
  · cases h
  · split at h
    · cases h
    · next dialect hdialect =>
      dsimp only at h
      split at h
      · cases h
      · next hrefusal =>
        cases h
        exact ⟨dialect, hdialect, rfl, hrefusal⟩

theorem add_of_refusal? {pool : Pool} {file : File} {dialect : Dialect}
    (hdependencies : ∀ name ∈ file.dependencies, name ∈ pool.files)
    (hdialect : file.dialect? = some dialect)
    (h : (pool.enter dialect file).refusal? dialect file = none) :
    pool.add file = .ok (pool.enter dialect file) := by
  have hnone : file.dependencies.find? (!pool.files.contains ·) = none := by
    simpa using hdependencies
  rw [add, hnone, hdialect]
  simp only [h]

theorem isSome_fieldSpec?_of_sound {pool : Pool} {context : Context} {message : Message}
    {field : Field} (h : pool.fieldIsSound context message field = true) :
    (pool.fieldSpec? context message field).isSome = true := by
  simp only [fieldIsSound, Bool.and_eq_true] at h
  obtain ⟨meaning, hmeaning, -⟩ := (Option.any_eq_true _ _).mp h.2
  rw [fieldSpec?, hmeaning]
  rfl

theorem isSome_extensionOf?_of_sound {pool : Pool} {context : Context} {field : Field}
    (h : pool.extensionIsSound context field = true) :
    (pool.extensionOf? context field).isSome = true := by
  simp only [extensionIsSound, Bool.and_eq_true] at h
  obtain ⟨extended, hextended, hmeanings⟩ := (Option.any_eq_true _ _).mp h.2
  obtain ⟨meaning, hmeaning, -⟩ := (Option.any_eq_true _ _).mp hmeanings
  simp [extensionOf?, hextended, hmeaning]

theorem fieldIsSound_of_messageRefusal? {pool : Pool} {context : Context} {message : Message}
    (h : pool.messageRefusal? context message = none) {field : Field}
    (hfield : field ∈ message.fields) : pool.fieldIsSound context message field = true := by
  simp only [messageRefusal?] at h
  split at h
  · cases h
  · split at h
    · cases h
    · split at h
      · cases h
      · next hnone => simpa using List.find?_eq_none.mp hnone field hfield

theorem of_extensionRefusal? {pool : Pool} {dialect : Dialect} {file : File}
    (h : pool.extensionRefusal? dialect file = none) :
    (∀ placed ∈ file.placedExtensions dialect, pool.extensionIsSound placed.1 placed.2 = true) ∧
      pool.extensionNumbers.Nodup := by
  rw [extensionRefusal?] at h
  split at h
  · cases h
  · next hnone =>
    refine ⟨fun placed hplaced => by simpa using List.find?_eq_none.mp hnone placed hplaced, ?_⟩
    exact firstRepeated?_eq_none.mp (Option.map_eq_none_iff.mp h)

theorem nodup_symbols_of_nameRefusal? {pool : Pool} {file : File}
    (h : pool.nameRefusal? file = none) : pool.symbols.Nodup := by
  rw [nameRefusal?] at h
  split at h
  · cases h
  · split at h
    · cases h
    · exact firstRepeated?_eq_none.mp (Option.map_eq_none_iff.mp (Option.or_eq_none_iff.mp h).2)

theorem refusal?_eq_none_iff {pool : Pool} {dialect : Dialect} {file : File} :
    pool.refusal? dialect file = none ↔
      indexesAreSound file = true ∧ (dialect = .editions ∨ file.setsFeatures = false) ∧
      pool.nameRefusal? file = none ∧
      (∀ placed ∈ file.placedEnums dialect, enumIsSound placed.1 placed.2 = true) ∧
      (∀ placed ∈ file.placedMessages dialect, pool.messageRefusal? placed.1 placed.2 = none) ∧
      pool.extensionRefusal? dialect file = none ∧
      ∀ service ∈ file.services, pool.serviceIsSound file.packageText service = true := by
  rw [refusal?]
  split
  · next hindexes => simp_all
  · next hindexes =>
    split
    · next hfeatures => simp_all
    · next hfeatures =>
      have hallowed : dialect = .editions ∨ file.setsFeatures = false := by
        simpa [or_iff_not_imp_left] using hfeatures
      have hsound : indexesAreSound file = true := by simpa using hindexes
      simp only [hsound, hallowed, true_and, Option.or_eq_none_iff, Option.map_eq_none_iff,
        List.find?_eq_none, List.findSome?_eq_none_iff, Bool.not_eq_true', Bool.not_eq_false]

/-- What a pool vouches for when it has not refused a file. -/
theorem of_refusal? {pool : Pool} {dialect : Dialect} {file : File}
    (hdialect : file.dialect? = some dialect) (h : pool.refusal? dialect file = none) :
    pool.symbols.Nodup ∧ pool.extensionNumbers.Nodup ∧ pool.Settles file := by
  obtain ⟨-, -, hnames, -, hmessages, hextensions, -⟩ := refusal?_eq_none_iff.mp h
  obtain ⟨hsound, hnumbers⟩ := of_extensionRefusal? hextensions
  refine ⟨nodup_symbols_of_nameRefusal? hnames, hnumbers, ?_, ?_⟩
  · rw [File.messagesInPlace, hdialect]
    intro placed hplaced field hfield
    have hrefusal := hmessages placed hplaced
    exact isSome_fieldSpec?_of_sound (fieldIsSound_of_messageRefusal? hrefusal hfield)
  · rw [File.extensionsInPlace, hdialect]
    exact fun placed hplaced => isSome_extensionOf?_of_sound (hsound placed hplaced)

theorem name_of_extensionIn? {pool : Pool} {placed : Context × Field} {extension : Extension}
    (h : pool.extensionIn? placed = some extension) :
    extension.name = qualify placed.1.scope placed.2.nameText := by
  obtain ⟨extended, -, h⟩ := Option.bind_eq_some_iff.mp h
  obtain ⟨meaning, -, h⟩ := Option.bind_eq_some_iff.mp h
  cases h
  rfl

def addedNames (pool : Pool) (file : File) : List String :=
  (file.messagesInPlace.map pool.typeOf).map MessageType.name ++
    (file.enumTypes.map EnumType.name ++
      (file.extensionsInPlace.filterMap pool.extensionIn?).map Extension.name)

section

variable {file : File} {dialect : Dialect} (hdialect : file.dialect? = some dialect)
include hdialect

theorem addedNames_sublist (pool : Pool) : (pool.addedNames file).Sublist file.declaredNames := by
  have hmessages : (file.messagesInPlace.map pool.typeOf).map MessageType.name =
      file.allMessages.map fun located => file.scopeOf located.path := by
    rw [← file.map_scope_placedMessages dialect, List.map_map, File.messagesInPlace, hdialect]
    rfl
  have henums : (file.enumTypes.map EnumType.name).Sublist (file.scopedEnums.flatMap
      fun entry => qualify entry.1 entry.2.nameText ::
        entry.2.values.map fun value => qualify entry.1 value.nameText) := by
    rw [← file.map_scoped_placedEnums dialect, File.enumTypes, hdialect, Option.elim_some]
    induction file.placedEnums dialect with
    | nil => exact .slnil
    | cons placed more ih => exact (ih.trans (List.sublist_append_right _ _)).cons_cons _
  have hextensions : ((file.extensionsInPlace.filterMap pool.extensionIn?).map
      Extension.name).Sublist (file.scopedExtensions.map fun entry =>
        qualify entry.1 entry.2.nameText) := by
    rw [← file.map_scoped_placedExtensions dialect, File.extensionsInPlace, hdialect,
      Option.elim_some]
    induction file.placedExtensions dialect with
    | nil => exact .slnil
    | cons placed more ih =>
      cases hextension : pool.extensionIn? placed with
      | none =>
        rw [List.filterMap_cons_none hextension]
        exact ih.cons _
      | some extension =>
        rw [List.filterMap_cons_some hextension, List.map_cons, name_of_extensionIn? hextension]
        exact ih.cons_cons _
  rw [addedNames, File.declaredNames, hmessages, List.append_assoc, List.append_assoc]
  refine (List.Sublist.refl _).append (henums.append ?_)
  exact hextensions.trans (List.sublist_append_left _ _)

theorem messages_enter (pool : Pool) :
    (pool.enter dialect file).messages =
      pool.messages ++ file.messagesInPlace.map (pool.declare dialect file).typeOf := by
  rw [File.messagesInPlace, hdialect]
  rfl

theorem enums_enter (pool : Pool) :
    (pool.enter dialect file).enums = pool.enums ++ file.enumTypes := by
  rw [File.enumTypes, hdialect]
  rfl

theorem extensions_enter (pool : Pool) :
    (pool.enter dialect file).extensions = pool.extensions ++
      file.extensionsInPlace.filterMap (pool.declare dialect file).extensionIn? := by
  rw [File.extensionsInPlace, hdialect]
  rfl

theorem named_enter {pool : Pool} (h : pool.tableNames.Subperm pool.symbols) :
    (pool.enter dialect file).tableNames.Subperm (pool.enter dialect file).symbols := by
  have hperm : (pool.enter dialect file).tableNames.Perm
      (pool.tableNames ++ (pool.declare dialect file).addedNames file) := by
    rw [tableNames, messages_enter hdialect, enums_enter hdialect, extensions_enter hdialect,
      tableNames, addedNames]
    simp only [List.map_append, List.perm_iff_count, List.count_append]
    intro name
    omega
  exact hperm.subperm.trans (h.append (addedNames_sublist hdialect _).subperm)

end

theorem unambiguous_declare {pool : Pool} {dialect : Dialect} {file : File}
    (h : (pool.enter dialect file).Unambiguous) :
    (pool.declare dialect file).Unambiguous := by
  have hmessages : (pool.declare dialect file).messages.map MessageType.name =
      (pool.enter dialect file).messages.map MessageType.name := by
    simp [declare, enter, Function.comp_def]
  have hextensions : (pool.declare dialect file).extensions.Sublist
      (pool.enter dialect file).extensions := List.sublist_append_left _ _
  have hnames : (pool.declare dialect file).tableNames.Sublist
      (pool.enter dialect file).tableNames := by
    rw [tableNames, tableNames, hmessages]
    exact (List.Sublist.refl _).append ((List.Sublist.refl _).append (hextensions.map _))
  exact ⟨hnames.subperm.trans h.named, h.names.sublist hnames,
    h.numbers.sublist (hextensions.map _)⟩

theorem knownTo_declare (pool : Pool) (dialect : Dialect) (file : File) :
    (pool.enter dialect file).KnownTo (pool.declare dialect file) := by
  refine ⟨?_, List.Subset.refl _⟩
  intro type htype
  rcases List.mem_append.mp htype with h | h
  · exact ⟨type, List.mem_append_left _ h, rfl, rfl⟩
  · obtain ⟨placed, hplaced, rfl⟩ := List.mem_map.mp h
    exact ⟨_, List.mem_append_right _ (List.mem_map_of_mem hplaced), rfl, rfl⟩

theorem unambiguous_empty : empty.Unambiguous :=
  ⟨List.nil_subperm, List.nodup_nil, List.nodup_nil⟩

theorem symbols_standard : Standard.pool.symbols =
    Standard.pool.tableNames ++ Standard.enums.flatMap Standard.valueNames := by
  have hnames : Standard.pool.tableNames =
    Standard.messages.map (·.name) ++ (Standard.enums.map (·.name) ++ []) := rfl
  rw [hnames, List.append_nil]
  rfl

theorem unambiguous_standard : Standard.pool.Unambiguous := by
  refine ⟨?_, by decide +kernel, List.nodup_nil⟩
  rw [symbols_standard]
  exact (List.sublist_append_left _ _).subperm

-- ---------------------------------------------------------------------------
-- Adding files one after the other
-- ---------------------------------------------------------------------------

/-- The tables of a pool are those of another one with what files add, and all that the files refer
to is there. -/
structure Gathers (base : Pool) (files : List File) (pool : Pool) : Prop where
  messages : pool.messages =
    base.messages ++ files.flatMap fun file => file.messagesInPlace.map pool.typeOf
  enums : pool.enums = base.enums ++ files.flatMap File.enumTypes
  extensions : pool.extensions =
    base.extensions ++ files.flatMap fun file => file.extensionsInPlace.filterMap pool.extensionIn?
  outermost : pool.outermost = base.outermost ++ files.flatMap File.outermostNames
  settled : ∀ file ∈ files, pool.Settles file

theorem Gathers.knownTo {base pool : Pool} {files : List File} (h : Gathers base files pool) :
    base.KnownTo pool := by
  refine ⟨fun type htype => ⟨type, ?_, rfl, rfl⟩, ?_⟩
  · rw [h.messages]
    exact List.mem_append_left _ htype
  · rw [h.enums]
    exact List.subset_append_left _ _

theorem unambiguous_add {pool after : Pool} {file : File} (hpool : pool.Unambiguous)
    (h : pool.add file = .ok after) : after.Unambiguous := by
  obtain ⟨dialect, hdialect, rfl, hrefusal⟩ := add_eq_ok h
  obtain ⟨hsymbols, hnumbers, -⟩ := of_refusal? hdialect hrefusal
  have hnamed := named_enter hdialect hpool.named
  have hnames : (pool.enter dialect file).tableNames.Nodup := by
    obtain ⟨names, hperm, hsublist⟩ := hnamed
    exact hperm.nodup_iff.mp (hsymbols.sublist hsublist)
  exact ⟨hnamed, hnames, hnumbers⟩

theorem gathers_add {pool after : Pool} {file : File} (hpool : pool.Unambiguous)
    (hfull : file.RefersInFull) (h : pool.add file = .ok after) :
    after.Unambiguous ∧ Gathers pool [file] after := by
  have hafter := unambiguous_add hpool h
  obtain ⟨dialect, hdialect, rfl, hrefusal⟩ := add_eq_ok h
  obtain ⟨-, -, hsettled⟩ := of_refusal? hdialect hrefusal
  have hdeclared := unambiguous_declare hafter
  have hknown := knownTo_declare pool dialect file
  refine ⟨hafter, ?_, ?_, ?_, ?_, ?_⟩
  · rw [List.flatMap_singleton, messages_enter hdialect,
      map_typeOf_of_known hafter hdeclared hknown hfull hsettled]
  · rw [List.flatMap_singleton, enums_enter hdialect]
  · rw [List.flatMap_singleton, extensions_enter hdialect,
      filterMap_extensionIn?_of_known hafter hdeclared hknown hfull hsettled]
  · rw [List.flatMap_singleton]
    rfl
  · exact fun other hother => List.mem_singleton.mp hother ▸ hsettled

/-- Adding files takes their declarations in. What the first file means is settled when it is added
and stays so to the end. -/
theorem gathers_foldlM {files : List File} (hfull : ∀ file ∈ files, file.RefersInFull)
    {base pool : Pool} (hbase : base.Unambiguous) (h : files.foldlM add base = .ok pool) :
    pool.Unambiguous ∧ Gathers base files pool := by
  induction files generalizing base with
  | nil =>
    cases h
    refine ⟨hbase, ?_, ?_, ?_, ?_, ?_⟩
    iterate 4 exact (List.append_nil _).symm
    exact fun file hfile => absurd hfile List.not_mem_nil
  | cons file more ih =>
    obtain ⟨hfile, hmore⟩ := List.forall_mem_cons.mp hfull
    obtain ⟨middle, hadd, hrest⟩ := bind_eq_ok.mp h
    obtain ⟨hmiddle, hfirst⟩ := gathers_add hbase hfile hadd
    obtain ⟨hpool, hothers⟩ := ih hmore hmiddle hrest
    have hsettled := hfirst.settled file List.mem_cons_self
    have hknown := hothers.knownTo
    refine ⟨hpool, ?_, ?_, ?_, ?_, ?_⟩
    · rw [hothers.messages, hfirst.messages, List.flatMap_singleton, List.flatMap_cons,
        List.append_assoc, map_typeOf_of_known hmiddle hpool hknown hfile hsettled]
    · rw [hothers.enums, hfirst.enums, List.flatMap_singleton, List.flatMap_cons,
        List.append_assoc]
    · rw [hothers.extensions, hfirst.extensions, List.flatMap_singleton, List.flatMap_cons,
        List.append_assoc, filterMap_extensionIn?_of_known hmiddle hpool hknown hfile hsettled]
    · rw [hothers.outermost, hfirst.outermost, List.flatMap_singleton, List.flatMap_cons,
        List.append_assoc]
    · exact List.forall_mem_cons.mpr
        ⟨.of_known hmiddle hpool hknown hfile hsettled, hothers.settled⟩

-- ---------------------------------------------------------------------------
-- The same files in another order
-- ---------------------------------------------------------------------------

/-- Unambiguous pools with the same message types and extensions in any order. -/
structure Equivalent (pool other : Pool) : Prop where
  unambiguous : pool.Unambiguous
  messages : pool.messages.Perm other.messages
  extensions : pool.extensions.Perm other.extensions
  outermost : pool.outermost.Perm other.outermost

/-- The message types that files add differ between pools in their fields at most. -/
theorem Gathers.knownTo_of_perm {base pool other : Pool} {files others : List File}
    (hperm : files.Perm others) (hpool : Gathers base files pool)
    (hother : Gathers base others other) : pool.KnownTo other := by
  constructor
  · intro type htype
    rw [hpool.messages] at htype
    rw [hother.messages]
    rcases List.mem_append.mp htype with h | h
    · exact ⟨type, List.mem_append_left _ h, rfl, rfl⟩
    · obtain ⟨file, hfile, h⟩ := List.mem_flatMap.mp h
      obtain ⟨placed, hplaced, rfl⟩ := List.mem_map.mp h
      refine ⟨other.typeOf placed, List.mem_append_right _ ?_, rfl, rfl⟩
      exact List.mem_flatMap.mpr ⟨file, hperm.subset hfile, List.mem_map_of_mem hplaced⟩
  · rw [hpool.enums, hother.enums]
    exact (hperm.flatMap_right _).append_left _ |>.subset

/-- Pools that the same files have been added to are alike, whichever way the files were added. -/
theorem equivalent_of_perm {base pool other : Pool} {files others : List File}
    (hbase : base.Unambiguous) (hfull : ∀ file ∈ files, file.RefersInFull)
    (hperm : files.Perm others) (hpool : files.foldlM add base = .ok pool)
    (hother : others.foldlM add base = .ok other) : pool.Equivalent other := by
  obtain ⟨hunambiguous, hfirst⟩ := gathers_foldlM hfull hbase hpool
  obtain ⟨hunambiguous', hsecond⟩ :=
    gathers_foldlM (fun file hfile => hfull file (hperm.symm.subset hfile)) hbase hother
  have hknown := hfirst.knownTo_of_perm hperm hsecond
  refine ⟨hunambiguous, ?_, ?_, ?_⟩
  · rw [hfirst.messages, hsecond.messages]
    refine List.Perm.append_left _ (hperm.flatMap fun file hfile => ?_)
    rw [map_typeOf_of_known hunambiguous hunambiguous' hknown (hfull file hfile)
      (hfirst.settled file hfile)]
  · rw [hfirst.extensions, hsecond.extensions]
    refine List.Perm.append_left _ (hperm.flatMap fun file hfile => ?_)
    rw [filterMap_extensionIn?_of_known hunambiguous hunambiguous' hknown (hfull file hfile)
      (hfirst.settled file hfile)]
  · rw [hfirst.outermost, hsecond.outermost]
    exact (hperm.flatMap_right _).append_left _

-- ---------------------------------------------------------------------------
-- Reading by the schema of a pool
-- ---------------------------------------------------------------------------

def extensionFields (pool : Pool) (name : String) : List Wire.FieldSpec :=
  (pool.extensions.filter (·.extendee == name)).map Extension.field

theorem fieldsOf_schema (pool : Pool) (name : String) :
    pool.schema.fieldsOf name =
      (pool.message? name).elim [] fun type => type.fields ++ pool.extensionFields type.name := by
  rw [Wire.Schema.fieldsOf, schema, message?]
  induction pool.messages with
  | nil => rfl
  | cons type more ih =>
    rw [List.map_cons, List.lookup_cons, List.find?_cons]
    by_cases hname : type.name = name
    · simp [hname, extensionFields]
    · rw [beq_false_of_ne hname, beq_false_of_ne (Ne.symm hname)]
      exact ih

theorem Unambiguous.nodup_extensionFields {pool : Pool} (h : pool.Unambiguous) (name : String) :
    ((pool.extensionFields name).map Wire.FieldSpec.number).Nodup := by
  have hpairs : ((pool.extensions.filter (·.extendee == name)).map fun extension =>
      (extension.extendee, extension.field.number)).Nodup :=
    h.numbers.sublist (List.filter_sublist.map _)
  have hsame : ((pool.extensions.filter (·.extendee == name)).map fun extension =>
      (extension.extendee, extension.field.number)) =
      ((pool.extensionFields name).map Wire.FieldSpec.number).map (name, ·) := by
    rw [extensionFields, List.map_map, List.map_map]
    refine List.map_congr_left fun extension hextension => ?_
    have hextendee : extension.extendee = name := by simpa using (List.mem_filter.mp hextension).2
    rw [hextendee]
    rfl
  exact List.Nodup.of_map _ (hsame ▸ hpairs)

namespace Equivalent

variable {pool other : Pool} (h : pool.Equivalent other)
include h

theorem message?_eq (name : String) : pool.message? name = other.message? name :=
  find?_eq_of_perm h.messages h.unambiguous.nodup_messages name

theorem extension?_eq (name : String) : pool.extension? name = other.extension? name :=
  find?_eq_of_perm h.extensions h.unambiguous.nodup_extensions name

theorem perm_extensionFields (name : String) :
    (pool.extensionFields name).Perm (other.extensionFields name) :=
  (h.extensions.filter _).map _

theorem schema : pool.schema.Equivalent other.schema := by
  refine ⟨fun name => ?_, fun name number => ?_, fun name => ?_⟩
  · rw [fieldsOf_schema, fieldsOf_schema, h.message?_eq]
    cases other.message? name with
    | none => exact .refl _
    | some type => exact (h.perm_extensionFields type.name).append_left _
  · rw [Wire.Schema.field?, Wire.Schema.field?, fieldsOf_schema, fieldsOf_schema, h.message?_eq]
    cases other.message? name with
    | none => rfl
    | some type =>
      rw [Option.elim_some, Option.elim_some, List.find?_append, List.find?_append,
        find?_eq_of_perm (h.perm_extensionFields type.name)
          (h.unambiguous.nodup_extensionFields type.name)]
  · exact (((h.messages.filter _).map _).contains_eq)

end Equivalent

end SchemaGen.Descriptor.Pool
