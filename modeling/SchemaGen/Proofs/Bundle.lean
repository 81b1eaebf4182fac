import SchemaGen.Bundle
import SchemaGen.Proofs.Artifacts
import SchemaGen.Proofs.Descriptor.Texts
import SchemaGen.Proofs.Directories
import SchemaGen.Proofs.Outline
import SchemaGen.Proofs.Text.Blank

/-!
# What is written from a descriptor set

Main statement: `Bundle.generate_writes`, for an output directory that is empty or missing and whose
way no file blocks, and a set whose strings are UTF-8. The modules of the response go into the
directory in order, the last of a name stays, and outside it only directories on the way are new. A
module may still be refused: its name may be too long for a file, or the way to the directory may
have passed through a directory of that name and left it by `..`. Then those before it have been
written.
-/

namespace SchemaGen

open Fallible

-- ---------------------------------------------------------------------------
-- Names of files
-- ---------------------------------------------------------------------------

/-- A name that stands for itself as a path: neither empty nor dots, without a slash or a null. -/
structure IsFileName (name : String) : Prop where
  slash : '/' ∉ name.toList
  null : '\x00' ∉ name.toList
  proper : name.toList ∉ [[], ['.'], ['.', '.']]

theorem ofString_of_slash_notMem {name : String} (hslash : '/' ∉ name.toList)
    (hproper : name.toList ∉ [[], ['.']]) : Path.ofString name = ⟨.current, [name]⟩ := by
  have hpieces : Text.pieces (· == '/') name.toList = [name.toList] := by
    refine Text.pieces_of_notMem fun c hc => ?_
    exact beq_false_of_ne fun he => hslash (he ▸ hc)
  have hanchor : Path.anchorOf name.toList = .current := by
    cases hchars : name.toList with
    | nil => rfl
    | cons c rest =>
      have hc : c ≠ '/' := fun he => hslash (by simp [hchars, he])
      simp [Path.anchorOf, hc]
  simp only [List.mem_cons, List.not_mem_nil, or_false, not_or] at hproper
  rw [Path.ofString, hanchor, hpieces]
  simp [hproper.1, hproper.2]

theorem IsFileName.ofString {name : String} (h : IsFileName name) :
    Path.ofString name = ⟨.current, [name]⟩ := by
  refine ofString_of_slash_notMem h.slash fun hmem => h.proper ?_
  exact List.mem_append_left [['.', '.']] hmem

open Descriptor (isIdentifier isLetterOrDigit)

theorem isLetterOrDigit_lowerChar {c : Char} (h : isLetterOrDigit c = true) :
    isLetterOrDigit (Text.lowerChar c) = true := by
  have hall : ∀ code < 128, isLetterOrDigit (Char.ofNat code) = true →
      isLetterOrDigit (Text.lowerChar (Char.ofNat code)) = true := by decide +kernel
  have hcode : c.toNat < 128 := by
    simp only [isLetterOrDigit, Descriptor.isLetter, Bool.or_eq_true, Bool.and_eq_true,
      decide_eq_true_eq, beq_iff_eq, Char.le_def, UInt32.le_iff_toNat_le] at h
    obtain ((h | h) | h) | h := h
    · exact Nat.lt_of_le_of_lt h.2 (by decide)
    · exact Nat.lt_of_le_of_lt h.2 (by decide)
    · rw [h]
      decide
    · exact Nat.lt_of_le_of_lt h.2 (by decide)
  have hsame := hall c.toNat hcode
  rw [Char.ofNat_toNat] at hsame
  exact hsame h

theorem lowerFrom_of_isLetterOrDigit {text : List Char} (h : ∀ c ∈ text, isLetterOrDigit c = true)
    (before : List Char) : Text.lowerFrom before text = text.map Text.lowerChar := by
  induction text generalizing before with
  | nil => rfl
  | cons c rest ih =>
    obtain ⟨hc, hrest⟩ := List.forall_mem_cons.mp h
    have hsigma : c ≠ 'Σ' := by
      rintro rfl
      exact absurd hc (by decide)
    have hdotted : c ≠ 'İ' := by
      rintro rfl
      exact absurd hc (by decide)
    simp [Text.lowerFrom, Text.lowerAt, hsigma, hdotted, ih hrest]

/-- The ending alone is longer than dots that stand for a directory. -/
theorem outputFile_notMem (message : String) (target : Target) :
    (Names.outputFile message target.fileSuffix).toList ∉ [[], ['.'], ['.', '.']] := by
  have hlength : 2 < (Names.outputFile message target.fileSuffix).toList.length := by
    rw [Names.outputFile, String.toList_append, List.length_append]
    cases target <;> exact Nat.lt_add_left _ (by decide)
  have hshort : ∀ text ∈ [[], ['.'], ['.', '.']], text.length ≤ 2 := by decide
  exact fun hmem => absurd (hshort _ hmem) (Nat.not_le.mpr hlength)

theorem isFileName_outputFile {message : String} (h : isIdentifier message = true)
    (target : Target) : IsFileName (Names.outputFile message target.fileSuffix) := by
  have hword := ModuleText.isLetterOrDigit_of_isIdentifierChars h
  have hlower : (Text.lower message).toList = message.toList.map Text.lowerChar := by
    rw [Text.lower, Text.lowerChars, lowerFrom_of_isLetterOrDigit hword, String.toList_ofList]
  have hsuffix : target.fileSuffix.toList.all (fun c => isLetterOrDigit c || c == '.') = true := by
    cases target <;> decide
  have hchars : ∀ c ∈ (Names.outputFile message target.fileSuffix).toList,
      isLetterOrDigit c = true ∨ c = '.' := by
    intro c hc
    rw [Names.outputFile, String.toList_append, hlower] at hc
    rcases List.mem_append.mp hc with hc | hc
    · obtain ⟨letter, hletter, rfl⟩ := List.mem_map.mp hc
      exact .inl (isLetterOrDigit_lowerChar (hword letter hletter))
    · simpa using List.all_eq_true.mp hsuffix c hc
  refine ⟨fun hslash => ?_, fun hnull => ?_, outputFile_notMem message target⟩
  · exact absurd (hchars _ hslash) (by decide)
  · exact absurd (hchars _ hnull) (by decide)

namespace FileSystem

-- ---------------------------------------------------------------------------
-- Writing into a directory
-- ---------------------------------------------------------------------------

def wayTo (fs : FileSystem) (path : Path) : List Location := entered (fs.startOf path) path.names

def placeOf (fs : FileSystem) (path : Path) : Location :=
  destination (fs.startOf path) path.names

/-- A directory that files can be written into once it has been made: there is nothing in it, and no
file stands in the way. -/
structure Receives (fs : FileSystem) (directory : Path) : Prop where
  tree : fs.IsTree
  fits : PathFits directory
  unblocked : fs.Unblocked (fs.wayTo directory)
  empty : ∀ names, fs.node? (fs.placeOf directory ++ names) ≠ none → names = []

end FileSystem

namespace Bundle

open FileSystem

def pathIn (directory : Path) (artifact : Artifact) : Path :=
  directory.join (Path.ofString artifact.name)

theorem pathIn_eq (directory : Path) {artifact : Artifact} (h : IsFileName artifact.name) :
    pathIn directory artifact = ⟨directory.anchor, directory.names ++ [artifact.name]⟩ := by
  rw [pathIn, h.ofString]
  rfl

def bytesOf (artifact : Artifact) : Wire.Bytes := artifact.content.toUTF8.data.toList

/-- Why an artifact cannot be written into a directory that has been made: its name or its path is
too long, or the way to the directory has left a directory of this name. -/
def fault? (fs : FileSystem) (directory : Path) (artifact : Artifact) : Option FileFault :=
  if maxPathBytes < (pathIn directory artifact).text.utf8ByteSize ∨
      maxNameBytes < artifact.name.utf8ByteSize then some .nameTooLong
  else if fs.placeOf directory ++ [artifact.name] ∈ fs.wayTo directory then some .isDirectory
  else none

theorem bind_apply {α β : Type} (first : InFileSystem α) (next : α → InFileSystem β)
    (fs : FileSystem) :
    (first >>= next) fs =
      match first fs with
      | (.ok value, after) => next value after
      | (.error failure, after) => (.error failure, after) := by
  change (ExceptT.bindCont next (first fs).1) (first fs).2 = _
  rcases first fs with ⟨_ | _, after⟩
  · rfl
  · rfl

theorem writeAll_nil (directory : Path) (fs : FileSystem) :
    inFileSystem.writeAll directory [] fs = (.ok [], fs) := rfl

theorem writeAll_cons_of_error {fs : FileSystem} {directory : Path} {artifact : Artifact}
    {fault : FileFault}
    (h : fs.writeFile (pathIn directory artifact) (bytesOf artifact) = .error fault)
    (more : List Artifact) :
    inFileSystem.writeAll directory (artifact :: more) fs =
      (.error (.file ⟨fault, pathIn directory artifact⟩), fs) := by
  have hwrite : inFileSystem.write (pathIn directory artifact) (bytesOf artifact) fs =
      (.error (.file ⟨fault, pathIn directory artifact⟩), fs) := by
    simp only [inFileSystem, h]
  rw [pathIn, bytesOf] at hwrite
  rw [Storage.writeAll, List.mapM_cons, bind_apply, bind_apply, hwrite]
  rfl

theorem writeAll_cons_of_ok {fs next : FileSystem} {directory : Path} {artifact : Artifact}
    (h : fs.writeFile (pathIn directory artifact) (bytesOf artifact) = .ok next)
    (more : List Artifact) :
    inFileSystem.writeAll directory (artifact :: more) fs =
      ((inFileSystem.writeAll directory more next).1.map (pathIn directory artifact :: ·),
        (inFileSystem.writeAll directory more next).2) := by
  have hwrite : inFileSystem.write (pathIn directory artifact) (bytesOf artifact) fs =
      (.ok (), next) := by
    simp only [inFileSystem, h]
  rw [pathIn, bytesOf] at hwrite
  rw [Storage.writeAll, List.mapM_cons, bind_apply, bind_apply, hwrite]
  change (inFileSystem.writeAll directory more >>=
    fun paths => pure (pathIn directory artifact :: paths)) next = _
  rw [bind_apply]
  rcases inFileSystem.writeAll directory more next with ⟨_ | _, last⟩
  · rfl
  · rfl

def contentAt? (directory : Location) (written : List Artifact) (place : Location) :
    Option Wire.Bytes :=
  (written.reverse.find? fun artifact => directory ++ [artifact.name] = place).map bytesOf

theorem contentAt?_concat (directory place : Location) (written : List Artifact)
    (artifact : Artifact) :
    contentAt? directory (written ++ [artifact]) place =
      if directory ++ [artifact.name] = place then some (bytesOf artifact)
      else contentAt? directory written place := by
  by_cases h : directory ++ [artifact.name] = place
  · simp [contentAt?, h]
  · simp [contentAt?, h]

/-- The file system after artifacts have been written into a directory. -/
structure Holds (fs : FileSystem) (directory : Path) (written : List Artifact)
    (after : FileSystem) : Prop where
  current : after.current = fs.current
  node? : ∀ place, after.node? place =
    if place ∈ fs.wayTo directory then some .directory
    else ((contentAt? (fs.placeOf directory) written place).map Node.file).or (fs.node? place)

theorem holds_nil {fs ready : FileSystem} {directory : Path}
    (h : fs.Opens (fs.wayTo directory) ready) : Holds fs directory [] ready := by
  refine ⟨h.current, fun place => ?_⟩
  rw [h.node?]
  rfl

theorem Holds.put {fs now : FileSystem} {directory : Path} {written : List Artifact}
    (h : Holds fs directory written now) {artifact : Artifact}
    (hway : fs.placeOf directory ++ [artifact.name] ∉ fs.wayTo directory) :
    Holds fs directory (written ++ [artifact])
      (now.put (fs.placeOf directory ++ [artifact.name]) (.file (bytesOf artifact))) := by
  refine ⟨h.current, fun place => ?_⟩
  rw [node?_put _ (by simp), contentAt?_concat, h.node?]
  by_cases hplace : place = fs.placeOf directory ++ [artifact.name]
  · subst hplace
    simp [hway]
  · simp [hplace, Ne.symm hplace]

section

variable {fs : FileSystem} {directory : Path} (hreceives : fs.Receives directory)
include hreceives

theorem locate_pathIn {written : List Artifact} {now : FileSystem}
    (hnow : Holds fs directory written now) {artifact : Artifact}
    (hname : IsFileName artifact.name) :
    now.locate (pathIn directory artifact) =
      if maxPathBytes < (pathIn directory artifact).text.utf8ByteSize ∨
          maxNameBytes < artifact.name.utf8ByteSize then .error .nameTooLong
      else .ok (fs.placeOf directory ++ [artifact.name]) := by
  have hpath := pathIn_eq directory hname
  have hup : artifact.name ≠ ".." := fun he => hname.proper (by simp [he])
  have horigin : now.origin directory.anchor = fs.startOf directory := by
    rw [startOf_eq, origin, origin, FileSystem.startOf, FileSystem.startOf, hnow.current]
  have hwalk : now.walk (now.origin directory.anchor) directory.names =
      .ok (fs.placeOf directory) := by
    rw [horigin]
    refine walk_ok hreceives.fits.names fun place hplace => ?_
    rw [hnow.node?]
    exact if_pos hplace
  have hnull : ∀ name ∈ (pathIn directory artifact).names, '\x00' ∉ name.toList := by
    intro name hmem
    rw [hpath] at hmem
    rcases List.mem_append.mp hmem with h | h
    · exact (pathFault?_eq_none.mp hreceives.fits.fault).1 name h
    · exact List.mem_singleton.mp h ▸ hname.null
  by_cases hlong : maxPathBytes < (pathIn directory artifact).text.utf8ByteSize
  · have hfault : pathFault? (pathIn directory artifact) = some .nameTooLong := by
      simpa [pathFault?, hlong] using hnull
    rw [locate, hfault, if_pos (.inl hlong)]
  · have hfault : pathFault? (pathIn directory artifact) = none :=
      pathFault?_eq_none.mpr ⟨hnull, Nat.le_of_not_lt hlong⟩
    rw [locate, hfault]
    simp only [hpath, follow_concat, if_neg hup, hwalk, ok_bind]
    rw [hpath] at hlong
    simp [hlong]

theorem writeFile_holds {written : List Artifact} {now : FileSystem}
    (hnow : Holds fs directory written now) {artifact : Artifact}
    (hname : IsFileName artifact.name) :
    (∃ fault, fault? fs directory artifact = some fault ∧
      now.writeFile (pathIn directory artifact) (bytesOf artifact) = .error fault) ∨
    (∃ next, fault? fs directory artifact = none ∧
      now.writeFile (pathIn directory artifact) (bytesOf artifact) = .ok next ∧
        Holds fs directory (written ++ [artifact]) next) := by
  rw [fault?, writeFile, locate_pathIn hreceives hnow hname]
  split
  · exact .inl ⟨.nameTooLong, rfl, rfl⟩
  · by_cases hway : fs.placeOf directory ++ [artifact.name] ∈ fs.wayTo directory
    · refine .inl ⟨.isDirectory, if_pos hway, ?_⟩
      rw [ok_bind, hnow.node?, if_pos hway]
    · have hnode : now.node? (fs.placeOf directory ++ [artifact.name]) =
          (contentAt? (fs.placeOf directory) written
            (fs.placeOf directory ++ [artifact.name])).map Node.file := by
        have hnone : fs.node? (fs.placeOf directory ++ [artifact.name]) = none :=
          Decidable.byContradiction fun h =>
            List.cons_ne_nil _ _ (hreceives.empty [artifact.name] h)
        rw [hnow.node?, if_neg hway, hnone, Option.or_none]
      refine .inr ⟨_, if_neg hway, ?_, hnow.put hway⟩
      rw [ok_bind, hnode]
      cases contentAt? (fs.placeOf directory) written (fs.placeOf directory ++ [artifact.name]) with
      | none => rfl
      | some content => rfl

/-- Artifacts without a fault are written one after the other, whatever is to be written next. -/
theorem writeAll_append {artifacts : List Artifact}
    (hnames : ∀ artifact ∈ artifacts, IsFileName artifact.name)
    (hfaults : ∀ artifact ∈ artifacts, fault? fs directory artifact = none)
    {written : List Artifact} {now : FileSystem} (hnow : Holds fs directory written now)
    (more : List Artifact) :
    ∃ next, Holds fs directory (written ++ artifacts) next ∧
      inFileSystem.writeAll directory (artifacts ++ more) now =
        ((inFileSystem.writeAll directory more next).1.map (artifacts.map (pathIn directory) ++ ·),
          (inFileSystem.writeAll directory more next).2) := by
  induction artifacts generalizing written now with
  | nil =>
    refine ⟨now, by rwa [List.append_nil], ?_⟩
    cases hmore : inFileSystem.writeAll directory more now with
    | mk result last => cases result <;> simp [hmore, Except.map]
  | cons artifact rest ih =>
    obtain ⟨hname, hrest⟩ := List.forall_mem_cons.mp hnames
    obtain ⟨hnone, hnones⟩ := List.forall_mem_cons.mp hfaults
    obtain ⟨fault, hfault, -⟩ | ⟨next, -, hwrite, hnext⟩ := writeFile_holds hreceives hnow hname
    · rw [hnone] at hfault
      cases hfault
    · obtain ⟨last, hlast, hwriteAll⟩ := ih hrest hnones hnext
      refine ⟨last, by simpa using hlast, ?_⟩
      rw [List.cons_append, writeAll_cons_of_ok hwrite, hwriteAll]
      cases (inFileSystem.writeAll directory more last).1 <;> simp [Except.map]

end

-- ---------------------------------------------------------------------------
-- What can be seen afterwards
-- ---------------------------------------------------------------------------

def lastContent? (artifacts : List Artifact) (name : String) : Option Wire.Bytes :=
  (artifacts.reverse.find? (·.name = name)).map bytesOf

/-- In a directory there are exactly the given artifacts, the last of each name, and outside it
there is nothing new but directories on the way to it. -/
structure Shows (fs : FileSystem) (directory : Path) (written : List Artifact)
    (after : FileSystem) : Prop where
  made : after.node? (fs.placeOf directory) = some .directory
  files : ∀ names content, after.node? (fs.placeOf directory ++ names) = some (.file content) ↔
    ∃ name, names = [name] ∧ lastContent? written name = some content
  outside : ∀ place, ¬fs.placeOf directory <+: place →
    after.node? place = fs.node? place ∨
      (place ∈ fs.wayTo directory ∧ fs.node? place = none ∧ after.node? place = some .directory)

theorem contentAt?_append (directory : Location) (written : List Artifact) (name : String) :
    contentAt? directory written (directory ++ [name]) = lastContent? written name := by
  simp [contentAt?, lastContent?]

theorem mem_of_contentAt? {directory place : Location} {written : List Artifact}
    {content : Wire.Bytes} (h : contentAt? directory written place = some content) :
    ∃ artifact ∈ written, directory ++ [artifact.name] = place := by
  obtain ⟨artifact, hfound, -⟩ := Option.map_eq_some_iff.mp h
  exact ⟨artifact, List.mem_reverse.mp (List.mem_of_find?_eq_some hfound),
    by simpa using List.find?_some hfound⟩

theorem contentAt?_eq_none {directory place : Location} (written : List Artifact)
    (h : ∀ name, directory ++ [name] ≠ place) : contentAt? directory written place = none := by
  refine Option.eq_none_iff_forall_ne_some.mpr fun content hcontent => ?_
  obtain ⟨artifact, -, hplace⟩ := mem_of_contentAt? hcontent
  exact h artifact.name hplace

theorem placeOf_cases {fs : FileSystem} {directory : Path} (h : fs.Receives directory) :
    fs.placeOf directory ∈ fs.wayTo directory ∨
      fs.node? (fs.placeOf directory) = some .directory := by
  obtain hentered | habove := destination_cases (fs.startOf directory) directory.names
  · exact .inl hentered
  · exact .inr (h.tree.node?_above habove (h.tree.node?_origin directory.anchor))

theorem node?_ne_file {fs : FileSystem} {directory : Path} (h : fs.Receives directory)
    (names : List String) (content : Wire.Bytes) :
    fs.node? (fs.placeOf directory ++ names) ≠ some (.file content) := by
  intro hnode
  obtain rfl := h.empty names (by simp [hnode])
  rw [List.append_nil] at hnode
  obtain hway | hdirectory := placeOf_cases h
  · exact h.unblocked _ hway content hnode
  · rw [hdirectory] at hnode
    cases hnode

theorem Holds.shows {fs after : FileSystem} {directory : Path} (hreceives : fs.Receives directory)
    {written : List Artifact} (h : Holds fs directory written after)
    (hwritten : ∀ artifact ∈ written,
      fs.placeOf directory ++ [artifact.name] ∉ fs.wayTo directory) :
    Shows fs directory written after where
  made := by
    rw [h.node?, contentAt?_eq_none written (by simp)]
    split
    · rfl
    · next hway => exact (placeOf_cases hreceives).resolve_left hway
  files := by
    intro names content
    constructor
    · intro hnode
      rw [h.node?] at hnode
      split at hnode
      · cases hnode
      · cases hcontent : contentAt? (fs.placeOf directory) written
            (fs.placeOf directory ++ names) with
        | some other =>
          obtain ⟨artifact, -, hplace⟩ := mem_of_contentAt? hcontent
          obtain rfl := List.append_cancel_left hplace
          rw [hcontent] at hnode
          cases hnode
          exact ⟨artifact.name, rfl, by rw [← hcontent, contentAt?_append]⟩
        | none =>
          rw [hcontent] at hnode
          exact absurd hnode (node?_ne_file hreceives names content)
    · rintro ⟨name, rfl, hcontent⟩
      rw [← contentAt?_append] at hcontent
      obtain ⟨artifact, hmem, hplace⟩ := mem_of_contentAt? hcontent
      rw [h.node?, if_neg (hplace ▸ hwritten artifact hmem), hcontent]
      rfl
  outside := by
    intro place houtside
    rw [h.node?, contentAt?_eq_none written fun name hplace => houtside ⟨[name], hplace⟩]
    split
    · next hway =>
      cases hnode : fs.node? place with
      | none => exact .inr ⟨hway, rfl, rfl⟩
      | some node =>
        cases node with
        | directory => exact .inl rfl
        | file content => exact absurd hnode (hreceives.unblocked place hway content)
    · exact .inl rfl

theorem Shows.same_files {fs after : FileSystem} {directory : Path}
    (hreceives : fs.Receives directory) (h : Shows fs directory [] after) (place : Location)
    (content : Wire.Bytes) :
    after.node? place = some (.file content) ↔ fs.node? place = some (.file content) := by
  by_cases hunder : fs.placeOf directory <+: place
  · obtain ⟨names, rfl⟩ := hunder
    have hnone : ¬∃ name, names = [name] ∧ lastContent? [] name = some content := by
      rintro ⟨name, -, hcontent⟩
      cases hcontent
    exact iff_of_false (mt (h.files names content).mp hnone)
      (node?_ne_file hreceives names content)
  · obtain hsame | ⟨-, hnone, hdirectory⟩ := h.outside place hunder
    · rw [hsame]
    · simp [hnone, hdirectory]

theorem notMem_wayTo_of_fault? {fs : FileSystem} {directory : Path} {artifact : Artifact}
    (h : fault? fs directory artifact = none) :
    fs.placeOf directory ++ [artifact.name] ∉ fs.wayTo directory := by
  intro hway
  rw [fault?, if_pos hway] at h
  split at h
  · cases h
  · cases h

section

variable {fs ready : FileSystem} {directory : Path} (hreceives : fs.Receives directory)
  (hready : Holds fs directory [] ready)
include hreceives hready

theorem writeAll_of_faultless {artifacts : List Artifact}
    (hnames : ∀ artifact ∈ artifacts, IsFileName artifact.name)
    (hfaults : ∀ artifact ∈ artifacts, fault? fs directory artifact = none) :
    ∃ after, inFileSystem.writeAll directory artifacts ready =
        (.ok (artifacts.map (pathIn directory)), after) ∧
      Shows fs directory artifacts after := by
  obtain ⟨after, hafter, hwriteAll⟩ := writeAll_append hreceives hnames hfaults hready []
  refine ⟨after, ?_, hafter.shows hreceives fun artifact hartifact =>
    notMem_wayTo_of_fault? (hfaults artifact hartifact)⟩
  simpa [writeAll_nil, Except.map] using hwriteAll

/-- Writing ends at the first artifact with a fault. -/
theorem writeAll_of_fault {before later : List Artifact} {artifact : Artifact} {fault : FileFault}
    (hnames : ∀ written ∈ before ++ artifact :: later, IsFileName written.name)
    (hfaults : ∀ earlier ∈ before, fault? fs directory earlier = none)
    (hfault : fault? fs directory artifact = some fault) :
    ∃ after, inFileSystem.writeAll directory (before ++ artifact :: later) ready =
        (.error (.file ⟨fault, pathIn directory artifact⟩), after) ∧
      Shows fs directory before after := by
  obtain ⟨after, hafter, hwriteAll⟩ := writeAll_append hreceives
    (fun earlier hearlier => hnames earlier (by simp [hearlier])) hfaults hready
    (artifact :: later)
  refine ⟨after, ?_, hafter.shows hreceives fun earlier hearlier =>
    notMem_wayTo_of_fault? (hfaults earlier hearlier)⟩
  obtain ⟨other, hother, hwrite⟩ | ⟨next, hnone, -⟩ :=
    writeFile_holds hreceives hafter (hnames artifact (by simp))
  · cases hfault.symm.trans hother
    rw [hwriteAll, writeAll_cons_of_error hwrite]
    rfl
  · cases hfault.symm.trans hnone

end

-- ---------------------------------------------------------------------------
-- From a set to files
-- ---------------------------------------------------------------------------

open Descriptor (File Request)

/-- The request for files of a set as they are asked for, perhaps without naming any. -/
def askedFor (files : List File) (targets : List String) (language : String) : Request where
  targets := targets
  parameter := some ("target=" ++ language)
  files := files

/-- Naming all files asks for the same as naming none. -/
theorem requested_request (files : List File) (targets : List String) (language : String) :
    (request files targets language).requested = (askedFor files targets language).requested := by
  cases targets with
  | nil =>
    cases files with
    | nil => rfl
    | cons file more => rfl
  | cons name more => rfl

theorem generate_request (files : List File) (targets : List String) (language : String) :
    Generation.generate (request files targets language) none =
      Generation.generate (askedFor files targets language) none := by
  have hrequested := requested_request files targets language
  have hmissing : (request files targets language).missing =
      (askedFor files targets language).missing := by
    simp only [Request.missing, hrequested]
    rfl
  have hchosen : (request files targets language).chosen =
      (askedFor files targets language).chosen := by
    simp only [Request.chosen, hrequested]
    rfl
  have hconverted : (request files targets language).converted =
      (askedFor files targets language).converted := by
    funext reader
    simp only [Request.converted, hmissing, hchosen]
  rw [Generation.generate_eq, Generation.generate_eq, hconverted]
  rfl

theorem hasTextNames_of_holdsTexts {content : Wire.Bytes}
    (h : Descriptor.holdsTexts Descriptor.Standard.fileSet content = true) :
    hasTextNames content = true := by
  have hfiles : ⟨1, .message Descriptor.Standard.fileDescriptor, .repeated⟩ ∈
      Descriptor.Standard.schema.fieldsOf Descriptor.Standard.fileSet := by decide +kernel
  obtain ⟨hname, -⟩ := Descriptor.layouts.file.fields
  rw [Descriptor.holdsTexts, Option.all_eq_true] at h
  rw [hasTextNames, Option.all_eq_true]
  intro parts hparts
  obtain ⟨records, hrecords, rfl⟩ := Option.map_eq_some_iff.mp hparts
  refine List.all_eq_true.mpr fun members hmembers => ?_
  exact Descriptor.lastIsText_of_areTexts (Descriptor.areTexts_of_strict
    (Descriptor.strict_child (h records hrecords) hfiles hmembers) hname)

def requestAt (fs : FileSystem) (bundle : Path) (targets : List (Option String))
    (language : String) : Except Failure Request :=
  match fs.readFile bundle with
  | .error fault => .error (.file ⟨fault, bundle⟩)
  | .ok content => requestFrom content targets language

/-- The request is made before the directory, and the directory before anything is generated. -/
theorem generate_eq (fs : FileSystem) (bundle : Path) (targets : List (Option String))
    (directory : Path) (language : String) :
    generate fs bundle targets (some directory) language =
      match requestAt fs bundle targets language with
      | .error failure => (.error failure, fs)
      | .ok request =>
        match fs.makeDirectories directory with
        | (.error failure, after) => (.error (.file failure), after)
        | (.ok (), ready) =>
          match Generation.generate request none with
          | .error failure => (.error (.generation failure), ready)
          | .ok artifacts => inFileSystem.writeAll directory artifacts ready := by
  unfold generate Storage.generate requestAt
  simp only [bind_apply, inFileSystem, Option.elim_some]
  cases fs.readFile bundle with
  | error fault => rfl
  | ok content =>
    dsimp only
    cases requestFrom content targets language with
    | error failure => rfl
    | ok request =>
      dsimp only
      rcases fs.makeDirectories directory with ⟨_ | ⟨⟩, ready⟩
      · rfl
      · cases Generation.generate request none with
        | error failure => rfl
        | ok artifacts => rfl

theorem mapM_some (targets : List String) : (targets.map some).mapM id = some targets := by
  induction targets with
  | nil => rfl
  | cons name more ih => simp [List.mapM_cons, ih]

theorem requestAt_ok {fs : FileSystem} {bundle : Path} {content : Wire.Bytes} {files : List File}
    (hread : fs.readFile bundle = .ok content) (hfiles : decodeSet? content = some files)
    (hnames : hasTextNames content = true) (targets : List String) (language : String) :
    requestAt fs bundle (targets.map some) language = .ok (request files targets language) := by
  simp only [requestAt, requestFrom, hread, hfiles, hnames, mapM_some, Bool.not_true,
    Bool.and_false, Bool.false_eq_true, if_false]

theorem requestAt_of_malformed {fs : FileSystem} {bundle : Path} {content : Wire.Bytes}
    (hread : fs.readFile bundle = .ok content) (hnames : hasTextNames content = false)
    {targets : List String} (htargets : targets = []) (language : String) :
    requestAt fs bundle (targets.map some) language = .error (.generation .malformedText) := by
  subst htargets
  cases hfiles : decodeSet? content with
  | none =>
    -- bytes that are no set have no names
    rw [decodeSet?, Option.map_eq_none_iff] at hfiles
    rw [hasTextNames, hfiles] at hnames
    cases hnames
  | some files => simp [requestAt, requestFrom, hread, hfiles, hnames]

theorem names_of_generate {request : Request} {artifacts : List Artifact}
    (h : Generation.generate request none = .ok artifacts) :
    ∃ target, Target.ofParameter request.parameter = .ok target ∧
      artifacts.map Artifact.name = request.sources.map fun source =>
        Names.outputFile source.2.nameText target.fileSuffix := by
  obtain ⟨target, reader, records, htarget, -, -, hrecords, rfl⟩ := Generation.generate_ok h
  refine ⟨target, htarget, ?_⟩
  rw [ModuleText.artifacts, List.map_map]
  exact map_eq_map_of_forall₂ (hrecords.imp fun source record hdescribes =>
    congrArg (Names.outputFile · target.fileSuffix) hdescribes.name)

theorem names_of_respond {request : Request} {response : Response}
    (h : Generation.respond request none = .ok response) :
    ∃ target : Target, response.files.map Artifact.name =
      (request.sources.map (·.2.nameText)).map (Names.outputFile · target.fileSuffix) := by
  obtain ⟨artifacts, hartifacts, rfl⟩ := Generation.respond_eq_ok.mp h
  obtain ⟨target, -, hnames⟩ := names_of_generate hartifacts
  exact ⟨target, by rwa [List.map_map]⟩

theorem isFileName_of_respond {request : Request} {response : Response}
    (h : Generation.respond request none = .ok response)
    (hnames : ∀ source ∈ request.sources, isIdentifier source.2.nameText = true) :
    ∀ artifact ∈ response.files, IsFileName artifact.name := by
  obtain ⟨target, hfiles⟩ := names_of_respond h
  intro artifact hmem
  have hname : artifact.name ∈ response.files.map Artifact.name := List.mem_map_of_mem hmem
  rw [hfiles] at hname
  obtain ⟨message, hmessage, hname⟩ := List.mem_map.mp hname
  obtain ⟨source, hsource, rfl⟩ := List.mem_map.mp hmessage
  rw [← hname]
  exact isFileName_outputFile (hnames source hsource) target

section

variable {fs : FileSystem} {bundle directory : Path} {content : Wire.Bytes}
  (hread : fs.readFile bundle = .ok content) (hreceives : fs.Receives directory)
  {files : List File} (hfiles : decodeSet? content = some files)
  (hnames : hasTextNames content = true)
include hread hreceives hfiles hnames

theorem generate_of_error {targets : List String} {language : String} {failure : SchemaGen.Failure}
    (h : Generation.generate (askedFor files targets language) none = .error failure) :
    ∃ ready, fs.Opens (fs.wayTo directory) ready ∧
      generate fs bundle (targets.map some) (some directory) language =
        (.error (.generation failure), ready) := by
  obtain ⟨ready, hready, hopens⟩ :=
    makeDirectories_opens hreceives.tree hreceives.fits hreceives.unblocked
  refine ⟨ready, hopens, ?_⟩
  rw [generate_eq, requestAt_ok hread hfiles hnames]
  simp only [hready, generate_request, h]

theorem generate_of_ok {targets : List String} {language : String} {artifacts : List Artifact}
    (h : Generation.generate (askedFor files targets language) none = .ok artifacts) :
    ∃ ready, fs.Opens (fs.wayTo directory) ready ∧
      generate fs bundle (targets.map some) (some directory) language =
        inFileSystem.writeAll directory artifacts ready := by
  obtain ⟨ready, hready, hopens⟩ :=
    makeDirectories_opens hreceives.tree hreceives.fits hreceives.unblocked
  refine ⟨ready, hopens, ?_⟩
  rw [generate_eq, requestAt_ok hread hfiles hnames]
  simp only [hready, generate_request, h]

end

theorem respond_error {request : Request} {failure : SchemaGen.Failure}
    (h : Generation.respond request none = .error failure) :
    Generation.generate request none = .error failure := by
  obtain h | ⟨artifacts, -, h⟩ := bind_eq_error.mp h
  · exact h
  · cases h

/-- Generation from a set of files into an empty or missing directory. A set that cannot be read
leaves all as it was, and so does one with a name that is not UTF-8 when no files are asked for by
name. Of other sets the strings are to be UTF-8. When nothing can be generated, no file is written.
Otherwise the files of the response are written in order up to the first that has a fault, if any
has. -/
theorem generate_writes {fs : FileSystem} {bundle directory : Path} {content : Wire.Bytes}
    (hread : fs.readFile bundle = .ok content) (hreceives : fs.Receives directory)
    (targets : List String) (language : String) :
    (decodeSet? content = none →
      generate fs bundle (targets.map some) (some directory) language =
        (.error .undecodableSet, fs)) ∧
    (hasTextNames content = false → targets = [] →
      generate fs bundle (targets.map some) (some directory) language =
        (.error (.generation .malformedText), fs)) ∧
    (Descriptor.holdsTexts Descriptor.Standard.fileSet content = true →
    ∀ files, decodeSet? content = some files →
      (∀ failure, Generation.respond (askedFor files targets language) none = .error failure →
        ∃ after, generate fs bundle (targets.map some) (some directory) language =
          (.error (.generation failure), after) ∧ Shows fs directory [] after ∧
            ∀ place content,
              after.node? place = some (.file content) ↔ fs.node? place = some (.file content)) ∧
      ∀ response, Generation.respond (askedFor files targets language) none = .ok response →
        (∀ source ∈ (askedFor files targets language).sources,
          isIdentifier source.2.nameText = true) →
        ((∀ file ∈ response.files, fault? fs directory file = none) →
          ∃ after, generate fs bundle (targets.map some) (some directory) language =
            (.ok (response.files.map (pathIn directory)), after) ∧
              Shows fs directory response.files after) ∧
        ∀ before file later fault, response.files = before ++ file :: later →
          (∀ earlier ∈ before, fault? fs directory earlier = none) →
          fault? fs directory file = some fault →
          ∃ after, generate fs bundle (targets.map some) (some directory) language =
            (.error (.file ⟨fault, pathIn directory file⟩), after) ∧
              Shows fs directory before after) := by
  refine ⟨fun hnone => ?_, fun hnames htargets => ?_, fun htexts files hfiles => ?_⟩
  · simp only [generate_eq, requestAt, requestFrom, hread, hnone]
  · rw [generate_eq, requestAt_of_malformed hread hnames htargets]
  have hnames := hasTextNames_of_holdsTexts htexts
  refine ⟨fun failure hfailure => ?_, ?_⟩
  · obtain ⟨ready, hopens, hgenerate⟩ :=
      generate_of_error hread hreceives hfiles hnames (respond_error hfailure)
    have hshows : Shows fs directory [] ready := (holds_nil hopens).shows hreceives
      (List.forall_mem_nil _)
    exact ⟨ready, hgenerate, hshows, hshows.same_files hreceives⟩
  · intro response hresponse hsources
    have hfileNames := isFileName_of_respond hresponse hsources
    obtain ⟨artifacts, hartifacts, rfl⟩ := Generation.respond_eq_ok.mp hresponse
    obtain ⟨ready, hopens, hgenerate⟩ := generate_of_ok hread hreceives hfiles hnames hartifacts
    rw [hgenerate]
    refine ⟨fun hfaults => ?_, fun before file later fault hsplit hfaults hfault => ?_⟩
    · exact writeAll_of_faultless hreceives (holds_nil hopens) hfileNames hfaults
    · dsimp only at hsplit hfileNames
      subst hsplit
      exact writeAll_of_fault hreceives (holds_nil hopens) hfileNames hfaults hfault

def encodeSet (files : List File) : Wire.Bytes :=
  Wire.Record.encodeAll (files.map fun file => .bytes 1 (Wire.Record.encodeAll file.toRecords))

theorem mem_of_node? {fs : FileSystem} {place : Location} (h : fs.node? place ≠ none) :
    place = [] ∨ place ∈ fs.nodes.map Prod.fst := by
  rw [FileSystem.node?] at h
  split at h
  · next hroot => exact .inl hroot
  · obtain ⟨node, hnode⟩ := Option.ne_none_iff_exists'.mp h
    obtain ⟨before, after, hnodes, -⟩ := List.lookup_eq_some_iff.mp hnode
    exact .inr (by simp [hnodes])

theorem receives_of_nodes {fs : FileSystem} {directory : Path}
    (hcurrent : fs.node? fs.current = some .directory)
    (hparents : ∀ place ∈ fs.nodes.map Prod.fst, fs.node? place.dropLast = some .directory)
    (hfault : pathFault? directory = none) (hfit : NamesFit directory.names)
    (hway : ∀ place ∈ fs.wayTo directory, fs.node? place ∈ [none, some .directory])
    (hempty : ∀ place ∈ fs.nodes.map Prod.fst, fs.placeOf directory <+: place →
      place = fs.placeOf directory) : fs.Receives directory where
  tree := by
    refine ⟨hcurrent, fun place name hnode => ?_⟩
    obtain hroot | hmem := mem_of_node? hnode
    · simp at hroot
    · simpa using hparents _ hmem
  fits := ⟨hfault, hfit⟩
  unblocked := by
    intro place hplace content hnode
    have hfree := hway place hplace
    rw [hnode] at hfree
    simp at hfree
  empty := by
    intro names hnode
    obtain hroot | hmem := mem_of_node? hnode
    · exact (List.append_eq_nil_iff.mp hroot).2
    · simpa using hempty _ hmem (List.prefix_append _ _)

/-- A set with two messages whose names differ in case, beside a directory that holds a file. -/
def shelf : FileSystem where
  current := []
  nodes := [
    (["bundle.pb"], .file (encodeSet [
      { name := some "a.proto",
        messages := [
          { name := some "User" }, { name := some "USER" }, { name := some "Order" }] }])),
    (["old"], .directory),
    (["old", "user.ts"], .file [1])]

def newShelf : Path := Path.ofString "old/../new/out"

theorem shelf_receives : shelf.Receives newShelf := by
  apply receives_of_nodes <;> decide +kernel

theorem generate_shelf :
    shelf.Receives newShelf ∧
    ∃ response : Response, ∃ after,
      response.files.map Artifact.name = ["user.ts", "user.ts", "order.ts"] ∧
      generate shelf (Path.ofString "bundle.pb") [] (some newShelf) "ts" =
        (.ok (response.files.map (pathIn newShelf)), after) ∧
      Shows shelf newShelf response.files after := by
  obtain ⟨content, hread, htexts, hany⟩ : ∃ content,
      shelf.readFile (Path.ofString "bundle.pb") = .ok content ∧
      Descriptor.holdsTexts Descriptor.Standard.fileSet content = true ∧
      (decodeSet? content).any (fun files =>
        (Generation.respond (askedFor files [] "ts") none).toOption.any fun response =>
          response.files.map Artifact.name = ["user.ts", "user.ts", "order.ts"] ∧
          (askedFor files [] "ts").sources.all (fun source => isIdentifier source.2.nameText) ∧
          response.files.all fun file => fault? shelf newShelf file = none) = true :=
    ⟨_, rfl, by decide +kernel, by decide +kernel⟩
  obtain ⟨files, hdecode, hfiles⟩ := (Option.any_eq_true _ _).mp hany
  obtain ⟨response, hresponse, hfacts⟩ := exists_ok_of_any hfiles
  obtain ⟨hnames, hidentifiers, hfits⟩ := of_decide_eq_true hfacts
  have hfaultless : ∀ file ∈ response.files, fault? shelf newShelf file = none := by
    intro file hfile
    exact of_decide_eq_true (List.all_eq_true.mp hfits file hfile)
  obtain ⟨after, hgenerate, hshows⟩ :=
    (((generate_writes hread shelf_receives [] "ts").2.2 htexts files hdecode).2 response
      hresponse (List.all_eq_true.mp hidentifiers)).1 hfaultless
  exact ⟨shelf_receives, response, after, hnames, hgenerate, hshows⟩

def letters (count : Nat) : String := String.ofList (List.replicate count 'A')

theorem lower_letters (count : Nat) :
    Text.lower (letters count) = String.ofList (List.replicate count 'a') := by
  have hletters : ∀ c ∈ (letters count).toList, isLetterOrDigit c = true := by
    intro c hc
    rw [letters, String.toList_ofList] at hc
    rw [List.eq_of_mem_replicate hc]
    decide
  have hletter : Text.lowerChar 'A' = 'a' := by decide +kernel
  rw [Text.lower, Text.lowerChars, lowerFrom_of_isLetterOrDigit hletters, letters,
    String.toList_ofList, List.map_replicate, hletter]

theorem utf8ByteSize_outputFile_letters (target : Target) :
    (Names.outputFile (letters 253) target.fileSuffix).utf8ByteSize = 256 := by
  rw [Names.outputFile, lower_letters]
  cases target <;> decide +kernel

def lonely (message : String) : FileSystem where
  current := []
  nodes := [(["bundle.pb"],
    .file (encodeSet [{ name := some "a.proto", messages := [{ name := some message }] }]))]

/-- A message whose module no directory takes, although its name is an identifier and the module is
generated. -/
theorem exists_unwritable_identifier :
    isIdentifier (letters 253) = true ∧ (lonely (letters 253)).Receives (Path.ofString "out") ∧
    ∃ content files, ∃ response : Response,
      (lonely (letters 253)).readFile (Path.ofString "bundle.pb") = .ok content ∧
      decodeSet? content = some files ∧
      (askedFor files [] "ts").sources.map (·.2.nameText) = [letters 253] ∧
      Generation.respond (askedFor files [] "ts") none = .ok response ∧
      ∃ path after, generate (lonely (letters 253)) (Path.ofString "bundle.pb") []
        (some (Path.ofString "out")) "ts" = (.error (.file ⟨.nameTooLong, path⟩), after) := by
  have hidentifier : isIdentifier (letters 253) = true := by
    rw [isIdentifier, letters, String.toList_ofList]
    decide +kernel
  have hreceives : (lonely (letters 253)).Receives (Path.ofString "out") := by
    apply receives_of_nodes <;> decide +kernel
  obtain ⟨content, hread, htexts, hany⟩ : ∃ content,
      (lonely (letters 253)).readFile (Path.ofString "bundle.pb") = .ok content ∧
      hasTextNames content = true ∧
      (decodeSet? content).any (fun files =>
        (Generation.respond (askedFor files [] "ts") none).toOption.any fun _ =>
          (askedFor files [] "ts").sources.map (·.2.nameText) = [letters 253]) = true :=
    ⟨_, rfl, by decide +kernel, by decide +kernel⟩
  obtain ⟨files, hdecode, hfiles⟩ := (Option.any_eq_true _ _).mp hany
  obtain ⟨response, hresponse, hsources⟩ := exists_ok_of_any hfiles
  replace hsources := of_decide_eq_true hsources
  refine ⟨hidentifier, hreceives, content, files, response, hread, hdecode, hsources, hresponse, ?_⟩
  have hnames : ∀ file ∈ response.files, IsFileName file.name := by
    obtain ⟨source, hsource, hname⟩ := List.map_eq_singleton_iff.mp hsources
    refine isFileName_of_respond hresponse fun other hother => ?_
    rw [hsource, List.mem_singleton] at hother
    rw [hother, hname]
    exact hidentifier
  obtain ⟨target, htarget⟩ := names_of_respond hresponse
  -- the only file has a name of one byte too many
  obtain ⟨file, hfile, hlong⟩ : ∃ file, response.files = [file] ∧ file.name.utf8ByteSize = 256 := by
    rw [hsources] at htarget
    obtain ⟨file, hfile, hname⟩ := List.map_eq_singleton_iff.mp htarget
    exact ⟨file, hfile, hname ▸ utf8ByteSize_outputFile_letters target⟩
  have hfault : fault? (lonely (letters 253)) (Path.ofString "out") file = some .nameTooLong := by
    rw [fault?, if_pos (.inr (by rw [hlong]; decide))]
  obtain ⟨artifacts, hartifacts, rfl⟩ := Generation.respond_eq_ok.mp hresponse
  obtain ⟨ready, hopens, hgenerate⟩ := generate_of_ok hread hreceives hdecode htexts hartifacts
  dsimp only at hfile hnames
  subst hfile
  obtain ⟨after, hwriteAll, -⟩ := writeAll_of_fault hreceives (holds_nil hopens) hnames
    (List.forall_mem_nil _) hfault
  exact ⟨_, after, hgenerate.trans hwriteAll⟩

end Bundle

end SchemaGen
