import SchemaGen.Proofs.Bundle

/-!
# Where files are written

A call writes modules of its request one after the other, each at the place that its name leads to
from the output directory, and changes no other file. A name without a slash leads to a place right
in the directory, and the call stays inside it exactly when all names do (`touched_inside_iff`).
Nothing keeps a name from climbing out (`touched_climbing`).
-/

namespace SchemaGen

namespace Text

-- ---------------------------------------------------------------------------
-- Slashes
-- ---------------------------------------------------------------------------

theorem ofNat_ne_slash {code : Nat} (h : 0x61 ≤ code) : Char.ofNat code ≠ '/' := by
  intro hslash
  by_cases hvalid : code.isValidChar
  · rw [Char.ofNat, dif_pos hvalid] at hslash
    have hcode : code = 0x2f := congrArg Char.toNat hslash
    omega
  · rw [Char.ofNat, dif_neg hvalid] at hslash
    revert hslash
    decide

/-- Nothing but a slash becomes one in lower case: all partners of characters come after it. -/
theorem lowerChar_ne_slash {c : Char} (h : c ≠ '/') : lowerChar c ≠ '/' := by
  have htable : caseRanges.all (fun range => 0x61 ≤ (range.first : Int) + range.shift) = true := by
    decide +kernel
  unfold lowerChar
  split
  · next range hfound =>
    have hrange := List.all_eq_true.mp htable range (List.mem_of_find?_eq_some hfound)
    have hcovers := List.find?_some hfound
    simp only [CaseRange.covers, Bool.and_eq_true, decide_eq_true_eq] at hrange hcovers
    have hcode : 0x61 ≤ ((c.toNat : Int) + range.shift).toNat := by omega
    exact ofNat_ne_slash hcode
  · exact h

theorem slash_mem_of_mem_lower {text : String} (h : '/' ∈ (lower text).toList) :
    '/' ∈ text.toList := by
  have hfrom : ∀ (chars before : List Char), '/' ∈ lowerFrom before chars → '/' ∈ chars := by
    intro chars
    induction chars with
    | nil => exact fun _ hmem => hmem
    | cons c rest ih =>
      intro before hmem
      rw [lowerFrom] at hmem
      rcases List.mem_append.mp hmem with hmem | hmem
      · by_cases hc : c = '/'
        · simp [hc]
        · exfalso
          unfold lowerAt at hmem
          split at hmem
          · split at hmem <;> simp at hmem
          · split at hmem
            · revert hmem
              decide
            · exact lowerChar_ne_slash hc (List.mem_singleton.mp hmem).symm
      · exact List.mem_cons_of_mem _ (ih _ hmem)
  rw [lower, String.toList_ofList] at h
  exact hfrom _ _ h

end Text

namespace FileSystem

open Fallible

-- ---------------------------------------------------------------------------
-- Places of paths
-- ---------------------------------------------------------------------------

theorem eq_destination_of_walk {fs : FileSystem} {location place : Location} {names : List String}
    (h : fs.walk location names = .ok place) : place = destination location names := by
  induction names generalizing location with
  | nil =>
    cases h
    rfl
  | cons name rest ih =>
    unfold walk at h
    unfold destination
    split at h
    · next hup =>
      rw [if_pos hup]
      exact ih h
    · next hup =>
      rw [if_neg hup]
      split at h
      · cases h
      · split at h
        · exact ih h
        · cases h
        · cases h

theorem eq_placeOf_of_locate {fs : FileSystem} {path : Path} {place : Location}
    (h : fs.locate path = .ok place) : place = fs.placeOf path := by
  obtain ⟨anchor, names⟩ := path
  unfold locate at h
  split at h
  · cases h
  · rcases List.eq_nil_or_concat' names with rfl | ⟨names, name, rfl⟩
    · cases h
      rfl
    · rw [follow_concat] at h
      rw [placeOf, startOf_eq]
      split at h
      · exact eq_destination_of_walk h
      · next hup =>
        obtain ⟨directory, hwalk, h⟩ := bind_eq_ok.mp h
        split at h
        · cases h
        · cases h
          rw [destination_concat, if_neg hup, eq_destination_of_walk hwalk]

theorem destination_append (location : Location) (first second : List String) :
    destination location (first ++ second) = destination (destination location first) second := by
  induction first generalizing location with
  | nil => rfl
  | cons name rest ih =>
    by_cases hup : name = ".."
    · simp [destination, hup, ih]
    · simp [destination, hup, ih]

theorem placeOf_congr {fs after : FileSystem} (h : after.current = fs.current) (path : Path) :
    after.placeOf path = fs.placeOf path := by
  simp only [placeOf, startOf, h]

-- ---------------------------------------------------------------------------
-- Files
-- ---------------------------------------------------------------------------

/-- The content of the file at a place, if there is one. -/
def file? (fs : FileSystem) (place : Location) : Option Wire.Bytes :=
  match fs.node? place with
  | some (.file content) => some content
  | _ => none

theorem file?_put {fs : FileSystem} {location : Location} (h : location ≠ [])
    (content : Wire.Bytes) (place : Location) :
    (fs.put location (.file content)).file? place =
      if place = location then some content else fs.file? place := by
  by_cases hplace : place = location
  · simp [file?, node?_put fs h, hplace]
  · simp [file?, node?_put fs h, hplace]

theorem writeFile_eq_ok {fs next : FileSystem} {path : Path} {content : Wire.Bytes}
    (h : fs.writeFile path content = .ok next) :
    fs.locate path = .ok (fs.placeOf path) ∧ fs.placeOf path ≠ [] ∧
      next = fs.put (fs.placeOf path) (.file content) := by
  obtain ⟨place, hplace, h⟩ := bind_eq_ok.mp h
  obtain rfl := eq_placeOf_of_locate hplace
  refine ⟨hplace, ?_⟩
  split at h
  · cases h
  · next hnode =>
    cases h
    refine ⟨fun hroot => hnode ?_, rfl⟩
    rw [hroot]
    rfl

structure SameFiles (fs after : FileSystem) : Prop where
  current : after.current = fs.current
  file? : ∀ place, after.file? place = fs.file? place

theorem SameFiles.refl (fs : FileSystem) : SameFiles fs fs := ⟨rfl, fun _ => rfl⟩

theorem SameFiles.trans {fs middle after : FileSystem} (h : SameFiles fs middle)
    (hafter : SameFiles middle after) : SameFiles fs after :=
  ⟨hafter.current.trans h.current, fun place => (hafter.file? place).trans (h.file? place)⟩

theorem sameFiles_of_makeDirectory {fs made : FileSystem} {path : Path}
    (h : fs.makeDirectory path = .ok made) : SameFiles fs made := by
  obtain ⟨place, -, h⟩ := bind_eq_ok.mp h
  split at h
  · cases h
  · next hnode =>
    cases h
    have hroot : place ≠ [] := by
      rintro rfl
      cases hnode
    refine ⟨rfl, fun other => ?_⟩
    by_cases hother : other = place
    · simp [FileSystem.file?, node?_put fs hroot, hother, hnode]
    · simp [FileSystem.file?, node?_put fs hroot, hother]

theorem sameFiles_ensureDirectory (fs : FileSystem) (path : Path) :
    SameFiles fs (fs.ensureDirectory path).2 := by
  unfold ensureDirectory
  split
  · next hmade => exact sameFiles_of_makeDirectory hmade
  · exact .refl fs
  · exact .refl fs

theorem sameFiles_makeUpTo (fs : FileSystem) (anchor : Anchor) (reversed : List String) :
    SameFiles fs (fs.makeUpTo anchor reversed).2 := by
  induction reversed with
  | nil => exact sameFiles_ensureDirectory fs _
  | cons name above ih =>
    unfold makeUpTo
    simp only
    split
    · split
      · next habove =>
        rw [habove] at ih
        exact ih.trans (sameFiles_ensureDirectory _ _)
      · exact ih
    · exact sameFiles_ensureDirectory fs _

end FileSystem

namespace Bundle

open Fallible
open FileSystem
open Descriptor (File Request)

-- ---------------------------------------------------------------------------
-- Runs of writes
-- ---------------------------------------------------------------------------

/-- The places of the files that writing into a directory creates or overwrites, in order. -/
def touchedBy (directory : Path) : List Artifact → FileSystem → List Location
  | [], _ => []
  | artifact :: more, fs =>
    match fs.locate (pathIn directory artifact),
      fs.writeFile (pathIn directory artifact) (bytesOf artifact) with
    | .ok place, .ok next => place :: touchedBy directory more next
    | _, _ => []

theorem touchedBy_cons_of_error {fs : FileSystem} {directory : Path} {artifact : Artifact}
    {fault : FileFault}
    (h : fs.writeFile (pathIn directory artifact) (bytesOf artifact) = .error fault)
    (more : List Artifact) : touchedBy directory (artifact :: more) fs = [] := by
  simp [touchedBy, h]

theorem touchedBy_cons_of_ok {fs next : FileSystem} {directory : Path} {artifact : Artifact}
    (h : fs.writeFile (pathIn directory artifact) (bytesOf artifact) = .ok next)
    (more : List Artifact) :
    touchedBy directory (artifact :: more) fs =
      fs.placeOf (pathIn directory artifact) :: touchedBy directory more next := by
  have hlocate := (writeFile_eq_ok h).1
  simp [touchedBy, h, hlocate]

theorem touchedBy_eq {fs now : FileSystem} (hcurrent : now.current = fs.current) (directory : Path)
    (artifacts : List Artifact) :
    touchedBy directory artifacts now =
      (artifacts.take (touchedBy directory artifacts now).length).map
        fun artifact => fs.placeOf (pathIn directory artifact) := by
  induction artifacts generalizing now with
  | nil => rfl
  | cons artifact more ih =>
    cases hwrite : now.writeFile (pathIn directory artifact) (bytesOf artifact) with
    | error fault => simp [touchedBy_cons_of_error hwrite]
    | ok next =>
      obtain ⟨-, -, hnext⟩ := writeFile_eq_ok hwrite
      have hmore := ih (show next.current = fs.current by rw [hnext]; exact hcurrent)
      rw [touchedBy_cons_of_ok hwrite, List.length_cons, List.take_succ_cons, List.map_cons,
        ← hmore, placeOf_congr hcurrent]

theorem file?_writeAll {now : FileSystem} {directory : Path} {artifacts : List Artifact}
    {place : Location} (h : place ∉ touchedBy directory artifacts now) :
    (inFileSystem.writeAll directory artifacts now).2.file? place = now.file? place := by
  induction artifacts generalizing now with
  | nil => rfl
  | cons artifact more ih =>
    cases hwrite : now.writeFile (pathIn directory artifact) (bytesOf artifact) with
    | error fault => rw [writeAll_cons_of_error hwrite]
    | ok next =>
      obtain ⟨-, hroot, hnext⟩ := writeFile_eq_ok hwrite
      rw [touchedBy_cons_of_ok hwrite, List.mem_cons, not_or] at h
      rw [writeAll_cons_of_ok hwrite, ih h.2, hnext, file?_put hroot, if_neg h.1]

theorem isSome_file?_writeAll {now : FileSystem} {directory : Path} {artifacts : List Artifact}
    {place : Location} (h : place ∈ touchedBy directory artifacts now) :
    ((inFileSystem.writeAll directory artifacts now).2.file? place).isSome = true := by
  induction artifacts generalizing now with
  | nil => cases h
  | cons artifact more ih =>
    cases hwrite : now.writeFile (pathIn directory artifact) (bytesOf artifact) with
    | error fault =>
      rw [touchedBy_cons_of_error hwrite] at h
      cases h
    | ok next =>
      obtain ⟨-, hroot, hnext⟩ := writeFile_eq_ok hwrite
      rw [writeAll_cons_of_ok hwrite]
      by_cases hmore : place ∈ touchedBy directory more next
      · exact ih hmore
      · -- nothing later goes to this place, so the file is still there
        rw [touchedBy_cons_of_ok hwrite, List.mem_cons, or_iff_left hmore] at h
        rw [file?_writeAll hmore, hnext, file?_put hroot, if_pos h]
        rfl

-- ---------------------------------------------------------------------------
-- Names that stay inside
-- ---------------------------------------------------------------------------

def leadsTo (directory : Location) (name : String) : Location :=
  match (Path.ofString name).anchor with
  | .current => destination directory (Path.ofString name).names
  | _ => destination [] (Path.ofString name).names

theorem placeOf_pathIn (fs : FileSystem) (directory : Path) (artifact : Artifact) :
    fs.placeOf (pathIn directory artifact) = leadsTo (fs.placeOf directory) artifact.name := by
  unfold pathIn Path.join leadsTo
  cases hanchor : (Path.ofString artifact.name).anchor with
  | current => simp [placeOf, startOf, destination_append]
  | root => simp [placeOf, startOf, hanchor]
  | doubleRoot => simp [placeOf, startOf, hanchor]

def IsChild (directory place : Location) : Prop := ∃ name, place = directory ++ [name]

theorem leadsTo_outputFile {message : String} (h : '/' ∉ message.toList) (directory : Location)
    (target : Target) :
    IsChild directory (leadsTo directory (Names.outputFile message target.fileSuffix)) := by
  have hproper := outputFile_notMem message target
  have hslash : '/' ∉ (Names.outputFile message target.fileSuffix).toList := by
    rw [Names.outputFile, String.toList_append, List.mem_append, not_or]
    exact ⟨fun hmem => h (Text.slash_mem_of_mem_lower hmem), by cases target <;> decide⟩
  have hup : Names.outputFile message target.fileSuffix ≠ ".." := fun he => hproper (by simp [he])
  refine ⟨Names.outputFile message target.fileSuffix, ?_⟩
  rw [leadsTo, ofString_of_slash_notMem hslash
    fun hmem => hproper (List.mem_append_left [['.', '.']] hmem)]
  simp [destination, hup]

-- ---------------------------------------------------------------------------
-- Calls
-- ---------------------------------------------------------------------------

/-- The places of the files that a call creates or overwrites, in order. -/
def touched (fs : FileSystem) (bundle : Path) (targets : List (Option String)) (directory : Path)
    (language : String) : List Location :=
  match requestAt fs bundle targets language, fs.makeDirectories directory with
  | .ok request, (.ok (), ready) =>
    match Generation.generate request none with
    | .ok artifacts => touchedBy directory artifacts ready
    | .error _ => []
  | _, _ => []

section

variable (fs : FileSystem) (bundle : Path) (targets : List (Option String)) (directory : Path)
  (language : String)

/-- A call writes nothing, or it writes what has been generated into the directory that it has
made. -/
theorem touched_cases :
    (touched fs bundle targets directory language = [] ∧
      SameFiles fs (generate fs bundle targets (some directory) language).2) ∨
    ∃ request ready artifacts, requestAt fs bundle targets language = .ok request ∧
      SameFiles fs ready ∧ Generation.generate request none = .ok artifacts ∧
      touched fs bundle targets directory language = touchedBy directory artifacts ready ∧
      generate fs bundle targets (some directory) language =
        inFileSystem.writeAll directory artifacts ready := by
  have hsame : SameFiles fs (fs.makeDirectories directory).2 := sameFiles_makeUpTo fs _ _
  unfold touched
  rw [generate_eq]
  cases hrequest : requestAt fs bundle targets language with
  | error failure => exact .inl ⟨rfl, .refl fs⟩
  | ok request =>
    simp only
    rcases hmade : fs.makeDirectories directory with ⟨_ | ⟨⟩, ready⟩
    · rw [hmade] at hsame
      exact .inl ⟨rfl, hsame⟩
    · rw [hmade] at hsame
      cases hgenerate : Generation.generate request none with
      | error failure => exact .inl ⟨by simp only [hgenerate], hsame⟩
      | ok artifacts =>
        exact .inr ⟨request, ready, artifacts, rfl, hsame, hgenerate, by simp only [hgenerate], rfl⟩

theorem touched_eq {request : Request} {target : Target}
    (hrequest : requestAt fs bundle targets language = .ok request)
    (htarget : Target.ofParameter request.parameter = .ok target) :
    touched fs bundle targets directory language =
      (request.sources.take (touched fs bundle targets directory language).length).map
        fun source => leadsTo (fs.placeOf directory)
          (Names.outputFile source.2.nameText target.fileSuffix) := by
  obtain ⟨hnone, -⟩ | ⟨found, ready, artifacts, hfound, hready, hartifacts, htouched, -⟩ :=
    touched_cases fs bundle targets directory language
  · simp [hnone]
  · cases hrequest.symm.trans hfound
    obtain ⟨other, hother, hnames⟩ := names_of_generate hartifacts
    cases htarget.symm.trans hother
    rw [htouched]
    have hplaces := touchedBy_eq hready.current directory artifacts
    simp only [placeOf_pathIn] at hplaces
    calc touchedBy directory artifacts ready
      _ = ((artifacts.map Artifact.name).take (touchedBy directory artifacts ready).length).map
          (leadsTo (fs.placeOf directory)) := by
        rw [← List.map_take, List.map_map]
        exact hplaces
      _ = _ := by
        rw [hnames, ← List.map_take, List.map_map]
        rfl

/-- A call leaves all files as they are but those that it touches. These stand right in the output
directory exactly when the names of the modules that are written lead there, as all names without a
slash do. -/
theorem touched_inside_iff :
    (∀ place, place ∉ touched fs bundle targets directory language →
      (generate fs bundle targets (some directory) language).2.file? place = fs.file? place) ∧
    (∀ place ∈ touched fs bundle targets directory language,
      ((generate fs bundle targets (some directory) language).2.file? place).isSome = true) ∧
    ((∀ place ∈ touched fs bundle targets directory language,
        IsChild (fs.placeOf directory) place) ↔
      ∀ request target, requestAt fs bundle targets language = .ok request →
        Target.ofParameter request.parameter = .ok target →
        ∀ source ∈ request.sources.take (touched fs bundle targets directory language).length,
          IsChild (fs.placeOf directory) (leadsTo (fs.placeOf directory)
            (Names.outputFile source.2.nameText target.fileSuffix))) ∧
    ∀ message target, '/' ∉ message.toList → IsChild (fs.placeOf directory)
      (leadsTo (fs.placeOf directory) (Names.outputFile message (Target.fileSuffix target))) := by
  refine ⟨?_, ?_, ?_, fun message target h => leadsTo_outputFile h _ target⟩
  · intro place hplace
    obtain ⟨-, hsame⟩ | ⟨-, ready, artifacts, -, hready, -, htouched, hgenerate⟩ :=
      touched_cases fs bundle targets directory language
    · exact hsame.file? place
    · rw [htouched] at hplace
      rw [hgenerate, file?_writeAll hplace, hready.file?]
  · intro place hplace
    obtain ⟨hnone, -⟩ | ⟨-, ready, artifacts, -, -, -, htouched, hgenerate⟩ :=
      touched_cases fs bundle targets directory language
    · rw [hnone] at hplace
      cases hplace
    · rw [htouched] at hplace
      rw [hgenerate]
      exact isSome_file?_writeAll hplace
  · constructor
    · intro hinside request target hrequest htarget source hsource
      apply hinside
      rw [touched_eq fs bundle targets directory language hrequest htarget]
      exact List.mem_map.mpr ⟨source, hsource, rfl⟩
    · intro hnames place hplace
      obtain ⟨hnone, -⟩ | ⟨request, -, artifacts, hrequest, -, hartifacts, -⟩ :=
        touched_cases fs bundle targets directory language
      · rw [hnone] at hplace
        cases hplace
      · obtain ⟨target, htarget, -⟩ := names_of_generate hartifacts
        rw [touched_eq fs bundle targets directory language hrequest htarget] at hplace
        obtain ⟨source, hsource, rfl⟩ := List.mem_map.mp hplace
        exact hnames request target hrequest htarget source hsource

end

/-- A message whose name climbs out of the directory. -/
theorem touched_climbing :
    touched (lonely "../Evil") (Path.ofString "bundle.pb") [] (Path.ofString "out") "ts" =
      [["evil.ts"]] ∧
    ¬IsChild ((lonely "../Evil").placeOf (Path.ofString "out")) ["evil.ts"] := by
  constructor
  · decide +kernel
  · rintro ⟨name, hname⟩
    have hout : (lonely "../Evil").placeOf (Path.ofString "out") = ["out"] := by decide +kernel
    simp [hout] at hname

end Bundle

end SchemaGen
