import Mathlib.Data.List.Pairwise
import SchemaGen.Proofs.Descriptor.Nesting
import SchemaGen.Proofs.Options.Declarations
import SchemaGen.Proofs.Options.Values

/-!
# Lookups of declared options

Once the files that declare options are in the pool, nothing that a reader looks up there is missing:
the option messages are those of the standard descriptors, and every declared option is found under
its full name (`ofFiles_finds`). What can go wrong goes wrong before that, with a file that is
missing, refused, or cannot be written out (`Obstructs`).
-/

namespace SchemaGen

open Fallible

-- ---------------------------------------------------------------------------
-- Names in accepted files
-- ---------------------------------------------------------------------------

namespace Descriptor

theorem ne_empty_of_isIdentifier {name : String} (h : isIdentifier name = true) : name ≠ "" := by
  rintro rfl
  simp [isIdentifier, isIdentifierChars] at h

theorem File.mem_plainNames_of_standsIn {file : File} {around : List Message} {message : Message}
    (h : StandsIn file.messages around message) : message.nameText ∈ file.plainNames := by
  have hmem : ⟨around, message⟩ ∈ file.allMessages := File.mem_allMessages.mpr h
  simp only [plainNames, List.mem_append, List.mem_flatMap]
  exact .inl (.inl (.inl ⟨_, hmem, by simp⟩))

theorem File.mem_plainNames_of_scopedExtension {file : File} {scope : String} {field : Field}
    (h : (scope, field) ∈ file.scopedExtensions) : field.nameText ∈ file.plainNames := by
  simp only [plainNames, List.mem_append, List.mem_map]
  exact .inl (.inr ⟨_, h, rfl⟩)

def File.extensionNames (file : File) : List String :=
  file.scopedExtensions.map fun entry => qualify entry.1 entry.2.nameText

namespace Pool

theorem isIdentifier_of_add {pool after : Pool} {file : File} (h : pool.add file = .ok after)
    {name : String} (hname : name ∈ file.plainNames) : isIdentifier name = true := by
  obtain ⟨dialect, -, -, hrefusal⟩ := add_eq_ok h
  obtain ⟨-, -, hnames, -⟩ := refusal?_eq_none_iff.mp hrefusal
  rw [nameRefusal?] at hnames
  split at hnames
  · cases hnames
  · split at hnames
    · cases hnames
    · have hnone := Option.map_eq_none_iff.mp (Option.or_eq_none_iff.mp hnames).1
      simpa using List.find?_eq_none.mp hnone name hname

theorem extensionNames_add {pool after : Pool} {file : File} (h : pool.add file = .ok after) :
    after.extensions.map Extension.name =
      pool.extensions.map Extension.name ++ file.extensionNames := by
  obtain ⟨dialect, -, rfl, hrefusal⟩ := add_eq_ok h
  obtain ⟨-, -, -, -, -, hextensions, -⟩ := refusal?_eq_none_iff.mp hrefusal
  obtain ⟨hsound, -⟩ := of_extensionRefusal? hextensions
  have hnames : ∀ placed ∈ file.placedExtensions dialect,
      ((pool.declare dialect file).extensionIn? placed).map Extension.name =
        some (qualify placed.1.scope placed.2.nameText) := by
    intro placed hplaced
    obtain ⟨extension, hextension⟩ := Option.isSome_iff_exists.mp
      (isSome_extensionOf?_declare pool dialect file
        (isSome_extensionOf?_of_sound (hsound placed hplaced)))
    have hfound : (pool.declare dialect file).extensionIn? placed = some extension := hextension
    simp [hfound, name_of_extensionIn? hfound]
  have hadded : ((file.placedExtensions dialect).filterMap
      (pool.declare dialect file).extensionIn?).map Extension.name = file.extensionNames := by
    rw [List.map_filterMap, List.filterMap_congr hnames, File.extensionNames,
      ← file.map_scoped_placedExtensions dialect, List.map_map]
    simp
  rw [← hadded, ← List.map_append]
  rfl

section

variable {files : List File} {base pool : Pool} (h : files.foldlM add base = .ok pool)
include h

theorem exists_add_of_mem {file : File} (hfile : file ∈ files) :
    ∃ before after : Pool, before.add file = .ok after := by
  induction files generalizing base with
  | nil => cases hfile
  | cons first more ih =>
    obtain ⟨middle, hadd, hrest⟩ := bind_eq_ok.mp h
    rcases List.mem_cons.mp hfile with rfl | hmore
    · exact ⟨base, middle, hadd⟩
    · exact ih hrest hmore

theorem extensionNames_foldlM : pool.extensions.map Extension.name =
    base.extensions.map Extension.name ++ files.flatMap File.extensionNames := by
  induction files generalizing base with
  | nil =>
    cases h
    simp
  | cons file more ih =>
    obtain ⟨middle, hadd, hrest⟩ := bind_eq_ok.mp h
    rw [ih hrest, extensionNames_add hadd, List.append_assoc, List.flatMap_cons]

theorem outermost_foldlM : base.outermost ⊆ pool.outermost := by
  induction files generalizing base with
  | nil =>
    cases h
    exact List.Subset.refl _
  | cons file more ih =>
    obtain ⟨middle, hadd, hrest⟩ := bind_eq_ok.mp h
    obtain ⟨dialect, -, rfl, -⟩ := add_eq_ok hadd
    exact List.Subset.trans (List.subset_append_left _ _) (ih hrest)

end

end Pool

end Descriptor

namespace Options

open Descriptor (Extension Field File Message Pool StandsFor StandsIn descend? isWritable latest?)

-- ---------------------------------------------------------------------------
-- Obstructions
-- ---------------------------------------------------------------------------

/-- What keeps a file from the pool: it is not there, it is refused, or it cannot be written out. -/
inductive Obstructs (files : List File) : Failure → Prop
  | absent {name : String} (unknown : latest? files name = none) :
      Obstructs files (.missingImport name)
  | refused {name : String} {file : File} {pool : Pool} {reason : Descriptor.Refusal}
      (known : latest? files name = some file) (refusal : pool.add file = .error reason) :
      Obstructs files (.unloadable name reason)
  | unwritable {name : String} {file : File} (known : latest? files name = some file)
      (incomplete : isWritable Descriptor.Standard.fileDescriptor file.toRecords = false) :
      Obstructs files .incomplete

theorem obstructs_of_perform {files : List File} {name : String} {pool : Pool} {failure : Failure}
    (h : (Closure.stepFor (Reader.byName files) name).perform pool = .error failure) :
    Obstructs files failure := by
  unfold Closure.stepFor at h
  rw [Descriptor.get?_byName] at h
  cases hfile : latest? files name with
  | none =>
    rw [hfile] at h
    dsimp only at h
    split at h
    · cases h
    · cases h
      exact .absent hfile
  | some file =>
    rw [hfile] at h
    simp only [Closure.Step.perform] at h
    split at h
    · split at h
      · cases h
      · next hrefusal =>
        cases h
        exact .refused hfile hrefusal
    · next hwritable =>
      cases h
      exact .unwritable hfile (by simpa using hwritable)

theorem obstructs_of_load {files : List File} {names : List String} {failure : Failure}
    (h : Closure.load (Reader.byName files) names = .error failure) : Obstructs files failure := by
  rw [Closure.load_eq, Closure.loadOrder_eq] at h
  obtain ⟨before, step, after, pool, hsteps, -, hstep⟩ := foldlM_error.mp h
  obtain ⟨-, -, hperm⟩ := Closure.tour_spec (Reader.byName files)
    (Descriptor.Standard.fileName :: names)
  have hmem : step ∈ before ++ step :: after := by simp
  rw [← hsteps, hperm.mem_iff] at hmem
  obtain ⟨name, -, rfl⟩ := List.mem_map.mp hmem
  exact obstructs_of_perform hstep

-- ---------------------------------------------------------------------------
-- Found extensions
-- ---------------------------------------------------------------------------

/-- What a pool holds for a declared option: the extension of that name, with dots between the names
of the package, of the messages around the declaration, and of the option. -/
structure FoundFor (files : List File) (pool : Pool) (option : DeclaredOption)
    (extension : Extension) : Prop where
  latest : latest? files option.file.nameText = some option.file
  found : pool.extension? option.declaration.fullName = some extension
  named : ∃ way chain, descend? option.file.messages way = some chain ∧
    option.field ∈ extensionsIn option.file chain ∧
    extension.name = ".".intercalate
      (packageNames option.file ++ chain.map Message.nameText ++ [option.field.nameText])
  stands : StandsFor extension option.field

theorem exists_chain {file : File} {scope : String} {field : Field}
    (h : (scope, field) ∈ file.scopedExtensions) :
    ∃ way chain, descend? file.messages way = some chain ∧ field ∈ extensionsIn file chain ∧
      scope = file.scopeOf (chain.map Message.nameText) := by
  obtain ⟨ways, hways, horder⟩ := file.exists_inLevelOrder
  rw [scopedExtensions_eq, ← hways, List.flatMap_map] at h
  obtain ⟨along, halong, h⟩ := List.mem_flatMap.mp h
  obtain ⟨declared, hdeclared, heq⟩ := List.mem_map.mp h
  cases heq
  exact ⟨along.1, along.2, ((horder.mem_iff along.1 along.2).mp halong).2, hdeclared, rfl⟩

theorem foundFor_of_added {files added : List File} {pool : Pool} {option : DeclaredOption}
    (hadded : added.foldlM Pool.add Descriptor.Standard.pool = .ok pool)
    (hfile : option.file ∈ added) (hoption : option ∈ declaredOptions files) :
    ∃ extension, FoundFor files pool option extension := by
  obtain ⟨hlatest, hentry⟩ := mem_declaredOptions hoption
  rw [Descriptor.get?_byName] at hlatest
  obtain ⟨extension, -, hfound, hname, hstands⟩ := exists_extension? hadded hfile hentry
  obtain ⟨way, chain, hchain, hfield, hscope⟩ := exists_chain hentry
  refine ⟨extension, hlatest, hfound, ⟨way, chain, hchain, hfield, ?_⟩, hstands⟩
  -- the pool has accepted the file, so that no name on the way is empty
  obtain ⟨before, after, hadd⟩ := Pool.exists_add_of_mem hadded hfile
  have hnames : ∀ name ∈ chain.map Message.nameText ++ [option.field.nameText], name ≠ "" := by
    simp only [List.mem_append, List.mem_map, List.mem_singleton]
    rintro name (⟨message, hmessage, rfl⟩ | rfl)
    · obtain ⟨around, hstands⟩ := StandsIn.of_descend? hchain hmessage
      exact Descriptor.ne_empty_of_isIdentifier
        (Pool.isIdentifier_of_add hadd (File.mem_plainNames_of_standsIn hstands))
    · exact Descriptor.ne_empty_of_isIdentifier
        (Pool.isIdentifier_of_add hadd (File.mem_plainNames_of_scopedExtension hentry))
  rw [hname, List.append_assoc, ← scopeOf_eq_intercalate _ hnames]
  simp [DeclaredOption.declaration, hscope, File.scopeOf]

theorem fullName_of_mem_ofFile {file : File} {declaration : Declaration}
    (h : declaration ∈ Declaration.ofFile file) : declaration.fullName ∈ file.extensionNames := by
  obtain ⟨entry, hentry, h⟩ := List.mem_filterMap.mp h
  obtain ⟨role, -, rfl⟩ := Option.map_eq_some_iff.mp h
  exact List.mem_map.mpr ⟨entry, hentry, rfl⟩

theorem nodup_fullNames_ofFile {file : File} (h : file.extensionNames.Nodup) :
    ((Declaration.ofFile file).map Declaration.fullName).Nodup := by
  rw [File.extensionNames, List.Nodup, List.pairwise_map] at h
  rw [List.Nodup, List.pairwise_map, Declaration.ofFile, List.pairwise_filterMap]
  apply h.imp
  rintro entry other hdiffer declaration hdeclaration second hsecond
  obtain ⟨_, -, rfl⟩ := Option.map_eq_some_iff.mp hdeclaration
  obtain ⟨_, -, rfl⟩ := Option.map_eq_some_iff.mp hsecond
  exact hdiffer

theorem nodup_values (files : List File) : (Reader.byName files).values.Nodup := by
  have hkeys : (Reader.byName files).keys.Nodup := OrderedMap.nodup_keys_ofList _
  have hnames : (Reader.byName files).values.map File.nameText = (Reader.byName files).keys := by
    simp only [OrderedMap.values, OrderedMap.keys, List.map_map]
    apply List.map_congr_left
    intro entry hentry
    have hfound : (Reader.byName files).get? entry.1 = some entry.2 :=
      OrderedMap.get?_of_mem hkeys hentry
    rw [Descriptor.get?_byName] at hfound
    exact Descriptor.nameText_of_latest? hfound
  rw [← hnames] at hkeys
  exact hkeys.of_map

theorem exists_option_of_declares {files : List File} {file : File} {declaration : Declaration}
    (hfile : file ∈ (Reader.byName files).values) (h : declaration ∈ Declaration.ofFile file) :
    ∃ option ∈ declaredOptions files, option.file = file := by
  obtain ⟨entry, hentry, h⟩ := List.mem_filterMap.mp h
  obtain ⟨role, hrole, -⟩ := Option.map_eq_some_iff.mp h
  refine ⟨⟨file, entry.1, entry.2, role⟩, List.mem_flatMap.mpr ⟨file, hfile, ?_⟩, rfl⟩
  exact List.mem_filterMap.mpr ⟨entry, hentry, by simp [hrole]⟩

/-- No two declared options have the same full name once their files are in one pool. -/
theorem nodup_fullNames {files added : List File} {pool : Pool}
    (hadded : added.foldlM Pool.add Descriptor.Standard.pool = .ok pool)
    (hfiles : ∀ option ∈ declaredOptions files, option.file ∈ added) :
    ((declared files).map Declaration.fullName).Nodup := by
  have hpool : (added.flatMap File.extensionNames).Nodup := by
    have hnodup :=
      (Pool.orderly_foldlM hadded Pool.orderly_standard).unambiguous.nodup_extensions
    rwa [Pool.extensionNames_foldlM hadded] at hnodup
  obtain ⟨heach, hapart⟩ := List.nodup_flatMap.mp hpool
  have hmem : ∀ file ∈ (Reader.byName files).values, ∀ declaration ∈ Declaration.ofFile file,
      file ∈ added := by
    intro file hfile declaration hdeclaration
    obtain ⟨option, hoption, rfl⟩ := exists_option_of_declares hfile hdeclaration
    exact hfiles option hoption
  rw [declared, Declaration.ofFiles, List.map_flatMap, List.nodup_flatMap]
  constructor
  · intro file hfile
    cases hdeclared : Declaration.ofFile file with
    | nil => simp
    | cons declaration more =>
      rw [← hdeclared]
      exact nodup_fullNames_ofFile (heach file (hmem file hfile declaration (by simp [hdeclared])))
  · apply (nodup_values files).pairwise_of_forall_ne
    intro file hfile other hother hdiffer name hname hsame
    obtain ⟨declaration, hdeclaration, rfl⟩ := List.mem_map.mp hname
    obtain ⟨second, hsecond, heq⟩ := List.mem_map.mp hsame
    have : Std.Symm (Function.onFun List.Disjoint File.extensionNames) := ⟨fun _ _ h => h.symm⟩
    have hdisjoint := hapart.forall (hmem file hfile _ hdeclaration)
      (hmem other hother _ hsecond) hdiffer
    exact hdisjoint (fullName_of_mem_ofFile hdeclaration) (heq ▸ fullName_of_mem_ofFile hsecond)

-- ---------------------------------------------------------------------------
-- The reader
-- ---------------------------------------------------------------------------

/-- Extensions with their roles fall into those for constraints and those for collections, both in
the order that they have together. -/
inductive Splits : List Role → List Extension → List (Flag × Extension) → List Extension → Prop
  | nil : Splits [] [] [] []
  | flag {flag : Flag} {extension : Extension} {roles : List Role}
      {extensions collections : List Extension} {flags : List (Flag × Extension)}
      (rest : Splits roles extensions flags collections) :
      Splits (.flag flag :: roles) (extension :: extensions) ((flag, extension) :: flags) collections
  | collection {extension : Extension} {roles : List Role}
      {extensions collections : List Extension} {flags : List (Flag × Extension)}
      (rest : Splits roles extensions flags collections) :
      Splits (.collection :: roles) (extension :: extensions) flags (extension :: collections)

theorem Splits.of_nil {extensions collections : List Extension} {flags : List (Flag × Extension)}
    (h : Splits [] extensions flags collections) : extensions = [] := by
  cases h
  rfl

theorem Reader.requireType_ok {pool : Pool} {name : String} (h : name ∈ pool.outermost) :
    Reader.requireType pool name = .ok () := by
  simp [Reader.requireType, h]

theorem Reader.exists_ofPool {pool : Pool} {declarations : List Declaration}
    {extensions : List Extension} (hfield : Descriptor.Standard.fieldOptions ∈ pool.outermost)
    (hmessage : Descriptor.Standard.messageOptions ∈ pool.outermost)
    (hfound : List.Forall₂ (fun declaration extension =>
      pool.extension? declaration.fullName = some extension) declarations extensions) :
    ∃ reader, Reader.ofPool pool declarations = .ok reader ∧
      Splits (declarations.map Declaration.role) extensions reader.flags reader.collections := by
  have hpairs : declarations.mapM (fun declaration => do
      return (declaration.role, ← Reader.extensionOf pool declaration)) =
        .ok ((declarations.map Declaration.role).zip extensions) := by
    rw [mapM_ok]
    induction hfound with
    | nil => exact .nil
    | cons hfirst _ ih => exact .cons (by simp [Reader.extensionOf, hfirst]) ih
  have hreader : ∃ reader, Reader.ofPool pool declarations = .ok reader := by
    rw [Reader.ofPool, requireType_ok hfield, ok_bind, requireType_ok hmessage, ok_bind, hpairs]
    exact ⟨_, rfl⟩
  obtain ⟨reader, hreader⟩ := hreader
  obtain ⟨-, hflags, hcollections⟩ := Reader.ofPool_ok hreader
  refine ⟨reader, hreader, ?_⟩
  rw [hflags, hcollections]
  clear hpairs hreader hflags hcollections
  induction hfound with
  | nil => exact .nil
  | @cons declaration extension _ _ hfirst _ ih =>
    cases hrole : declaration.role with
    | flag flag => simpa [hrole, hfirst, Reader.flagOf?, Reader.collectionOf?] using Splits.flag ih
    | collection =>
      simpa [hrole, hfirst, Reader.flagOf?, Reader.collectionOf?] using Splits.collection ih

structure Registers (files : List File) (pool : Pool) (reader : Reader)
    (extensions : List Extension) : Prop where
  fieldOptions : Descriptor.Standard.fieldOptions ∈ pool.outermost
  messageOptions : Descriptor.Standard.messageOptions ∈ pool.outermost
  found : List.Forall₂ (FoundFor files pool) (declaredOptions files) extensions
  distinct : extensions.Nodup
  split : Splits ((declared files).map Declaration.role) extensions reader.flags reader.collections

theorem exists_registers {files : List File} {pool : Pool}
    (hload : Closure.load (Reader.byName files) ((declared files).map Declaration.fileName) =
      .ok pool)
    (hstandard : latest? files Descriptor.Standard.fileName = none) :
    ∃ reader extensions, Reader.ofPool pool (declared files) = .ok reader ∧
      Registers files pool reader extensions := by
  obtain ⟨added, hadded, hfiles⟩ := exists_added hload hstandard
  obtain ⟨hfield, hmessage⟩ := Descriptor.Standard.mem_outermost
  replace hfield := Pool.outermost_foldlM hadded hfield
  replace hmessage := Pool.outermost_foldlM hadded hmessage
  obtain ⟨extensions, hextensions⟩ := exists_forall₂ fun option hoption =>
    foundFor_of_added hadded (hfiles option hoption) hoption
  have hfound : List.Forall₂ (fun declaration extension =>
      pool.extension? declaration.fullName = some extension) (declared files) extensions := by
    rw [declared_eq, List.forall₂_map_left_iff]
    exact hextensions.imp fun option extension h => h.found
  obtain ⟨reader, hreader, hsplit⟩ := Reader.exists_ofPool hfield hmessage hfound
  refine ⟨reader, extensions, hreader, hfield, hmessage, hextensions, ?_, hsplit⟩
  -- equal extensions would have one name, and hence be declared under one name
  have hnames : extensions.map Extension.name = (declared files).map Declaration.fullName := by
    apply map_eq_map_of_forall₂
    exact hfound.imp fun declaration extension h => by simpa using List.find?_some h
  have hnodup := nodup_fullNames hadded hfiles
  rw [← hnames] at hnodup
  exact hnodup.of_map

theorem load_nil {files : List File} (h : latest? files Descriptor.Standard.fileName = none) :
    Closure.load (Reader.byName files) [] = .ok Descriptor.Standard.pool := by
  simp [Closure.load, Closure.visit, Closure.start, Descriptor.get?_byName, h]

/-- A reader of files without standard descriptors of their own is built unless some file is kept
from the pool. All lookups succeed, and the extensions of the two kinds are those of the declared
options in their order. -/
theorem ofFiles_finds {files : List File}
    (hown : ∀ file ∈ files, file.nameText ≠ Descriptor.Standard.fileName) :
    (∃ failure, Reader.ofFiles files = .error failure ∧ Obstructs files failure ∧
      Closure.load (Reader.byName files) ((declared files).map Declaration.fileName) =
        .error failure) ∨
    ∃ pool reader extensions, Reader.ofFiles files = .ok reader ∧
      Closure.load (Reader.byName files) ((declared files).map Declaration.fileName) = .ok pool ∧
      Registers files pool reader extensions := by
  have hstandard := Descriptor.latest?_eq_none_iff.mpr hown
  cases hload : Closure.load (Reader.byName files) ((declared files).map Declaration.fileName) with
  | error failure =>
    left
    refine ⟨failure, ?_, obstructs_of_load hload, rfl⟩
    by_cases hnone : declared files = []
    · rw [hnone, List.map_nil, load_nil hstandard] at hload
      cases hload
    · rw [Reader.ofFiles_of_declared hnone, hload, error_bind]
  | ok pool =>
    right
    obtain ⟨reader, extensions, hreader, hregisters⟩ := exists_registers hload hstandard
    by_cases hnone : declared files = []
    · refine ⟨pool, _, extensions, Reader.ofFiles_of_undeclared hnone, rfl,
        { hregisters with split := ?_ }⟩
      have hsplit := hregisters.split
      rw [hnone] at hsplit ⊢
      rw [hsplit.of_nil]
      exact .nil
    · refine ⟨pool, reader, extensions, ?_, rfl, hregisters⟩
      rw [Reader.ofFiles_of_declared hnone, hload, ok_bind, hreader]

theorem ofFiles_finds_rules :
    (∀ file ∈ [rulesFile], file.nameText ≠ Descriptor.Standard.fileName) ∧
      ∃ pool extensions, extensions.length = 4 ∧ Registers [rulesFile] pool rulesReader extensions := by
  have hown : ∀ file ∈ [rulesFile], file.nameText ≠ Descriptor.Standard.fileName := by decide
  refine ⟨hown, ?_⟩
  obtain ⟨failure, hfailed, -⟩ | ⟨pool, reader, extensions, hreader, -, hregisters⟩ :=
    ofFiles_finds hown
  · rw [ofFiles_rules] at hfailed
    cases hfailed
  · rw [ofFiles_rules] at hreader
    cases hreader
    refine ⟨pool, extensions, ?_, hregisters⟩
    rw [← hregisters.found.length_eq]
    decide +kernel

end Options

end SchemaGen
