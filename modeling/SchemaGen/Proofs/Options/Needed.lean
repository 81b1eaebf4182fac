import SchemaGen.Proofs.Options.Reach
import SchemaGen.Proofs.Pipeline

/-!
# The files behind the option declarations

A reader is built from the files that its declarations need: the standard descriptors, the files
that declare options, and what these import. Of all other files it shows nothing (`ofFiles_congr`).
The files here have distinct names.
-/

namespace SchemaGen

open Descriptor (File latest?)
open Options.Closure (Reached tourFrom)

-- ---------------------------------------------------------------------------
-- Distinct names
-- ---------------------------------------------------------------------------

namespace Descriptor

abbrev Distinct (files : List File) : Prop := (files.map File.nameText).Nodup

theorem Distinct.values_byName {files : List File} (h : Distinct files) :
    (Options.Reader.byName files).values = files := by
  have hkeys : ((files.map fun file => (file.nameText, file)).map Prod.fst).Nodup := by
    rwa [List.map_map]
  rw [Options.Reader.byName, OrderedMap.ofList_of_nodup hkeys, OrderedMap.values, List.map_map]
  exact List.map_id _

theorem Distinct.latest?_eq_some_iff {files : List File} (h : Distinct files) {name : String}
    {file : File} : latest? files name = some file ↔ file ∈ files ∧ file.nameText = name := by
  constructor
  · intro hfound
    exact ⟨List.mem_reverse.mp (List.mem_of_find?_eq_some hfound), nameText_of_latest? hfound⟩
  · rintro ⟨hmem, rfl⟩
    cases hfound : latest? files file.nameText with
    | none => simpa using List.find?_eq_none.mp hfound file (List.mem_reverse.mpr hmem)
    | some other =>
      have hother : other ∈ files := List.mem_reverse.mp (List.mem_of_find?_eq_some hfound)
      exact congrArg some (List.inj_on_of_nodup_map h hother hmem (nameText_of_latest? hfound))

end Descriptor

namespace Options

open Descriptor (Distinct)

-- ---------------------------------------------------------------------------
-- Needed files
-- ---------------------------------------------------------------------------

def startNames (files : List File) : List String :=
  Descriptor.Standard.fileName :: (Declaration.ofFiles files).map Declaration.fileName

/-- The names that reading options takes: the standard descriptors, the files that declare options,
and what these import. -/
def Needed (files : List File) : String → Prop :=
  Reached (Reader.byName files) (startNames files)

instance (files : List File) : DecidablePred (Needed files) :=
  inferInstanceAs (DecidablePred (Reached (Reader.byName files) (startNames files)))

def neededFiles (files : List File) : List File :=
  files.filter fun file => Needed files file.nameText

theorem fileName_of_mem_ofFile {file : File} {declaration : Declaration}
    (h : declaration ∈ Declaration.ofFile file) : declaration.fileName = file.nameText := by
  obtain ⟨extension, -, hextension⟩ := List.mem_filterMap.mp h
  obtain ⟨role, -, rfl⟩ := Option.map_eq_some_iff.mp hextension
  rfl

theorem needed_of_declares {files : List File} {file : File} (hfile : file ∈ files)
    (hdeclares : Declaration.ofFile file ≠ []) : Needed files file.nameText := by
  obtain ⟨declaration, more, hcons⟩ := List.exists_cons_of_ne_nil hdeclares
  have hmem : declaration ∈ Declaration.ofFile file := hcons ▸ List.mem_cons_self
  refine .root (List.mem_cons_of_mem _ ?_)
  rw [← fileName_of_mem_ofFile hmem]
  exact List.mem_map_of_mem (List.mem_flatMap.mpr ⟨file, hfile, hmem⟩)

theorem ofFiles_neededFiles (files : List File) :
    Declaration.ofFiles (neededFiles files) = Declaration.ofFiles files := by
  have hfilter : ∀ more : List File, more ⊆ files →
      (more.filter fun file => Needed files file.nameText).flatMap Declaration.ofFile =
        more.flatMap Declaration.ofFile := by
    intro more
    induction more with
    | nil => exact fun _ => rfl
    | cons file more ih =>
      intro hsubset
      obtain ⟨hfile, hmore⟩ := List.cons_subset.mp hsubset
      by_cases hneeded : Needed files file.nameText
      · rw [List.filter_cons_of_pos (by simpa using hneeded), List.flatMap_cons,
          List.flatMap_cons, ih hmore]
      · have hnone : Declaration.ofFile file = [] :=
          Decidable.byContradiction fun h => hneeded (needed_of_declares hfile h)
        rw [List.filter_cons_of_neg (by simpa using hneeded), List.flatMap_cons, hnone,
          List.nil_append, ih hmore]
  exact hfilter files (List.Subset.refl files)

theorem startNames_eq {files others : List File}
    (h : neededFiles files = neededFiles others) : startNames files = startNames others := by
  rw [startNames, startNames, ← ofFiles_neededFiles files, h, ofFiles_neededFiles]

section

variable {files others : List File} (hfiles : Distinct files) (hothers : Distinct others)
  (hneeded : neededFiles files = neededFiles others)
include hfiles hothers hneeded

theorem latest?_of_needed {name : String} (hname : Needed files name) {file : File}
    (hfile : latest? files name = some file) : latest? others name = some file := by
  obtain ⟨hmem, rfl⟩ := hfiles.latest?_eq_some_iff.mp hfile
  have hkept : file ∈ neededFiles others := by
    rw [← hneeded]
    exact List.mem_filter.mpr ⟨hmem, by simpa using hname⟩
  exact hothers.latest?_eq_some_iff.mpr ⟨(List.mem_filter.mp hkept).1, rfl⟩

theorem needed_of_needed {name : String} (hname : Needed files name) : Needed others name := by
  induction hname with
  | root mem => exact .root (startNames_eq hneeded ▸ mem)
  | imported importer found mem ih =>
    rw [Descriptor.get?_byName] at found
    refine .imported ih ?_ mem
    rw [Descriptor.get?_byName]
    exact latest?_of_needed hfiles hothers hneeded importer found

theorem latest?_eq_of_needed {name : String} (hname : Needed files name) :
    latest? files name = latest? others name := by
  cases hfile : latest? files name with
  | some file => exact (latest?_of_needed hfiles hothers hneeded hname hfile).symm
  | none =>
    cases hother : latest? others name with
    | none => rfl
    | some other =>
      have hback := latest?_of_needed hothers hfiles hneeded.symm
        (needed_of_needed hfiles hothers hneeded hname) hother
      rw [hfile] at hback
      cases hback

/-- The reader of files depends on the needed ones only. -/
theorem Reader.ofFiles_congr : Reader.ofFiles files = Reader.ofFiles others := by
  have hdeclarations : Declaration.ofFiles (Reader.byName files).values =
      Declaration.ofFiles (Reader.byName others).values := by
    rw [hfiles.values_byName, hothers.values_byName, ← ofFiles_neededFiles files, hneeded,
      ofFiles_neededFiles]
  have hload : ∀ names, Descriptor.Standard.fileName :: names = startNames files →
      Closure.load (Reader.byName files) names = Closure.load (Reader.byName others) names := by
    intro names hnames
    rw [Closure.load_eq, Closure.load_eq, Closure.loadOrder_eq, Closure.loadOrder_eq, hnames,
      Closure.tourFrom_congr fun name hname => ?_]
    rw [Descriptor.get?_byName, Descriptor.get?_byName]
    exact latest?_eq_of_needed hfiles hothers hneeded hname
  simp only [Reader.ofFiles, ← hdeclarations]
  cases hlist : Declaration.ofFiles (Reader.byName files).values with
  | nil => rfl
  | cons declaration more =>
    have hstart : Descriptor.Standard.fileName ::
        (declaration :: more).map Declaration.fileName = startNames files := by
      rw [startNames, ← hlist, hfiles.values_byName]
    exact congrArg (· >>= fun pool => ofPool pool (declaration :: more)) (hload _ hstart)

end

end Options

end SchemaGen
