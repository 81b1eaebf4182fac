import Mathlib.Data.List.Infix
import SchemaGen.FileSystem
import SchemaGen.Proofs.Fallible

/-!
# Making directories

A path leads through places, each entered by a name, and two dots lead back up. Where none of these
places is a file, the directory that the path means can be made, and the places entered that were
missing are all that is added (`makeDirectories_opens`).
-/

namespace SchemaGen.FileSystem

open Fallible

-- ---------------------------------------------------------------------------
-- What stands where
-- ---------------------------------------------------------------------------

theorem lookup_putNode (location place : Location) (node : Node) (nodes : List (Location × Node)) :
    (putNode location node nodes).lookup place =
      if place = location then some node else nodes.lookup place := by
  induction nodes with
  | nil =>
    by_cases h : place = location
    · simp [putNode, h]
    · simp [putNode, List.lookup_cons, beq_false_of_ne h, h]
  | cons entry rest ih =>
    obtain ⟨other, standing⟩ := entry
    by_cases hother : other = location
    · subst hother
      by_cases h : place = other
      · simp [putNode, h]
      · simp [putNode, List.lookup_cons, beq_false_of_ne h, h]
    · by_cases h : place = other
      · subst h
        simp [putNode, hother]
      · simp [putNode, hother, List.lookup_cons, beq_false_of_ne h, ih]

theorem node?_put (fs : FileSystem) {location : Location} (h : location ≠ []) (node : Node)
    (place : Location) :
    (fs.put location node).node? place =
      if place = location then some node else fs.node? place := by
  by_cases hplace : place = []
  · subst hplace
    simp [node?, h.symm]
  · simp [node?, hplace, put, lookup_putNode]

/-- A file system in which everything stands in a directory, the current one included. -/
structure IsTree (fs : FileSystem) : Prop where
  current : fs.node? fs.current = some .directory
  parents : ∀ place name, fs.node? (place ++ [name]) ≠ none → fs.node? place = some .directory

theorem IsTree.node?_above {fs : FileSystem} (h : fs.IsTree) {place location : Location}
    (habove : place <+: location) (hlocation : fs.node? location = some .directory) :
    fs.node? place = some .directory := by
  obtain ⟨names, rfl⟩ := habove
  induction names using List.reverseRecOn with
  | nil => simpa using hlocation
  | append_singleton names name ih =>
    refine ih (h.parents _ name ?_)
    rw [List.append_assoc, hlocation]
    exact Option.some_ne_none _

def origin (fs : FileSystem) (anchor : Anchor) : Location := fs.startOf ⟨anchor, []⟩

theorem startOf_eq (fs : FileSystem) (path : Path) : fs.startOf path = fs.origin path.anchor := rfl

theorem IsTree.node?_origin {fs : FileSystem} (h : fs.IsTree) (anchor : Anchor) :
    fs.node? (fs.origin anchor) = some .directory := by
  cases anchor with
  | current => exact h.current
  | root => rfl
  | doubleRoot => rfl

-- ---------------------------------------------------------------------------
-- The way of a path
-- ---------------------------------------------------------------------------

/-- The places that names lead into, one after the other. -/
def entered : Location → List String → List Location
  | _, [] => []
  | location, name :: rest =>
    if name = ".." then entered location.dropLast rest
    else (location ++ [name]) :: entered (location ++ [name]) rest

/-- Where names lead to. -/
def destination : Location → List String → Location
  | location, [] => location
  | location, name :: rest =>
    if name = ".." then destination location.dropLast rest
    else destination (location ++ [name]) rest

theorem entered_concat (location : Location) (names : List String) (name : String) :
    entered location (names ++ [name]) = entered location names ++
      if name = ".." then [] else [destination location names ++ [name]] := by
  induction names generalizing location with
  | nil => by_cases h : name = ".." <;> simp [entered, destination, h]
  | cons first rest ih =>
    by_cases h : first = ".."
    · simp [entered, destination, h, ih]
    · simp [entered, destination, h, ih]

theorem destination_concat (location : Location) (names : List String) (name : String) :
    destination location (names ++ [name]) =
      if name = ".." then (destination location names).dropLast
      else destination location names ++ [name] := by
  induction names generalizing location with
  | nil => by_cases h : name = ".." <;> simp [destination, h]
  | cons first rest ih =>
    by_cases h : first = ".."
    · simp [destination, h, ih]
    · simp [destination, h, ih]

/-- A way ends at a place that was entered, or goes back to where it came from or above. -/
theorem destination_cases (location : Location) (names : List String) :
    destination location names ∈ entered location names ∨
      destination location names <+: location := by
  induction names generalizing location with
  | nil => exact .inr (List.prefix_refl _)
  | cons name rest ih =>
    by_cases h : name = ".."
    · simp only [entered, destination, h, if_true]
      obtain hentered | habove := ih location.dropLast
      · exact .inl hentered
      · exact .inr (habove.trans (List.dropLast_prefix location))
    · simp only [entered, destination, h, if_false]
      obtain hentered | habove := ih (location ++ [name])
      · exact .inl (List.mem_cons_of_mem _ hentered)
      · obtain hsame | habove := List.prefix_concat_iff.mp habove
        · rw [hsame]
          exact .inl List.mem_cons_self
        · exact .inr habove

-- ---------------------------------------------------------------------------
-- Walking
-- ---------------------------------------------------------------------------

def NamesFit (names : List String) : Prop := ∀ name ∈ names, name.utf8ByteSize ≤ maxNameBytes

instance (names : List String) : Decidable (NamesFit names) :=
  inferInstanceAs (Decidable (∀ name ∈ names, name.utf8ByteSize ≤ maxNameBytes))

theorem walk_ok {fs : FileSystem} {location : Location} {names : List String}
    (hfit : NamesFit names)
    (h : ∀ place ∈ entered location names, fs.node? place = some .directory) :
    fs.walk location names = .ok (destination location names) := by
  induction names generalizing location with
  | nil => rfl
  | cons name rest ih =>
    obtain ⟨hname, hrest⟩ := List.forall_mem_cons.mp hfit
    by_cases hup : name = ".."
    · simp only [entered, hup, if_true] at h
      simp only [walk, destination, hup, if_true]
      exact ih hrest h
    · simp only [entered, hup, if_false] at h
      obtain ⟨hfirst, hothers⟩ := List.forall_mem_cons.mp h
      simp only [walk, destination, hup, if_false, if_neg (Nat.not_lt.mpr hname), hfirst]
      exact ih hrest hothers

theorem walk_notFound {fs : FileSystem} {location : Location} {names : List String}
    (hfit : NamesFit names)
    (hopen : ∀ place ∈ entered location names, ∀ content, fs.node? place ≠ some (.file content))
    (h : ¬∀ place ∈ entered location names, fs.node? place = some .directory) :
    fs.walk location names = .error .notFound := by
  induction names generalizing location with
  | nil => exact absurd (List.forall_mem_nil _) h
  | cons name rest ih =>
    obtain ⟨hname, hrest⟩ := List.forall_mem_cons.mp hfit
    by_cases hup : name = ".."
    · simp only [entered, hup, if_true] at h hopen
      simp only [walk, hup, if_true]
      exact ih hrest hopen h
    · simp only [entered, hup, if_false] at h hopen
      obtain ⟨hfirst, hothers⟩ := List.forall_mem_cons.mp hopen
      simp only [walk, hup, if_false, if_neg (Nat.not_lt.mpr hname)]
      cases hnode : fs.node? (location ++ [name]) with
      | none => rfl
      | some node =>
        cases node with
        | file content => exact absurd hnode (hfirst content)
        | directory =>
          refine ih hrest hothers fun hall => h ?_
          exact List.forall_mem_cons.mpr ⟨hnode, hall⟩

-- ---------------------------------------------------------------------------
-- Paths that can be followed
-- ---------------------------------------------------------------------------

structure PathFits (path : Path) : Prop where
  fault : pathFault? path = none
  names : NamesFit path.names

theorem pathFault?_eq_none {path : Path} :
    pathFault? path = none ↔ (∀ name ∈ path.names, '\x00' ∉ name.toList) ∧
      path.text.utf8ByteSize ≤ maxPathBytes := by
  rw [pathFault?]
  split
  · next h =>
    obtain ⟨name, hname, hnull⟩ := List.any_eq_true.mp h
    simp only [reduceCtorEq, false_iff, not_and]
    exact fun hnone => absurd (by simpa using hnull) (hnone name hname)
  · next h =>
    have hnone : ∀ name ∈ path.names, '\x00' ∉ name.toList := by simpa using h
    split
    · next hlong =>
      simp only [reduceCtorEq, false_iff, not_and, Nat.not_le]
      exact fun _ => hlong
    · next hshort => exact ⟨fun _ => ⟨hnone, Nat.le_of_not_lt hshort⟩, fun _ => rfl⟩

theorem text_of_ne_nil (anchor : Anchor) {names : List String} (h : names ≠ []) :
    Path.text ⟨anchor, names⟩ = Path.anchorText anchor ++ "/".intercalate names := by
  cases names with
  | nil => exact absurd rfl h
  | cons name more => cases anchor <;> rfl

/-- A path is no longer than what continues it, but for the dot of the current directory. -/
theorem text_concat_le (anchor : Anchor) (names : List String) (name : String) :
    (Path.text ⟨anchor, names⟩).utf8ByteSize ≤
      max 1 (Path.text ⟨anchor, names ++ [name]⟩).utf8ByteSize := by
  have hne : names ++ [name] ≠ [] := by simp
  rw [text_of_ne_nil anchor hne]
  cases names with
  | nil =>
    cases anchor with
    | current => exact Nat.le_max_left 1 _
    | root => exact Nat.le_max_left 1 _
    | doubleRoot =>
      refine Nat.le_trans ?_ (Nat.le_max_right _ _)
      rw [String.utf8ByteSize_append]
      exact Nat.le_add_right _ _
  | cons first more =>
    refine Nat.le_trans ?_ (Nat.le_max_right _ _)
    rw [text_of_ne_nil anchor (List.cons_ne_nil first more),
      String.intercalate_append_of_ne_nil (List.cons_ne_nil first more) (List.cons_ne_nil name [])]
    simp only [String.utf8ByteSize_append]
    omega

theorem PathFits.of_concat {anchor : Anchor} {names : List String} {name : String}
    (h : PathFits ⟨anchor, names ++ [name]⟩) : PathFits ⟨anchor, names⟩ := by
  obtain ⟨hnull, htext⟩ := pathFault?_eq_none.mp h.fault
  refine ⟨pathFault?_eq_none.mpr ⟨fun part hpart => hnull part (by simp [hpart]), ?_⟩,
    fun part hpart => h.names part (by simp [hpart])⟩
  refine Nat.le_trans (text_concat_le anchor names name) (Nat.max_le.mpr ⟨by decide, htext⟩)

-- ---------------------------------------------------------------------------
-- Making directories
-- ---------------------------------------------------------------------------

/-- Afterwards there are directories at the given places, and nothing else has changed. -/
structure Opens (fs : FileSystem) (places : List Location) (after : FileSystem) : Prop where
  current : after.current = fs.current
  node? : ∀ place, after.node? place =
    if place ∈ places then some .directory else fs.node? place

def Unblocked (fs : FileSystem) (places : List Location) : Prop :=
  ∀ place ∈ places, ∀ content, fs.node? place ≠ some (.file content)

theorem Opens.refl {fs : FileSystem} {places : List Location}
    (h : ∀ place ∈ places, fs.node? place = some .directory) : fs.Opens places fs := by
  refine ⟨rfl, fun place => ?_⟩
  split
  · next hplace => exact h place hplace
  · rfl

theorem Opens.origin_eq {fs after : FileSystem} {places : List Location} (h : fs.Opens places after)
    (anchor : Anchor) : after.origin anchor = fs.origin anchor := by
  cases anchor with
  | current => exact h.current
  | root => rfl
  | doubleRoot => rfl

theorem Opens.node?_of_mem {fs after : FileSystem} {places : List Location}
    (h : fs.Opens places after) : ∀ place ∈ places, after.node? place = some .directory := by
  intro place hplace
  rw [h.node?, if_pos hplace]

theorem Opens.node?_of_directory {fs after : FileSystem} {places : List Location}
    (h : fs.Opens places after) {place : Location} (hplace : fs.node? place = some .directory) :
    after.node? place = some .directory := by
  rw [h.node?]
  split
  · rfl
  · exact hplace

theorem Opens.node?_destination {fs after : FileSystem} (htree : fs.IsTree) {anchor : Anchor}
    {names : List String} (h : fs.Opens (entered (fs.origin anchor) names) after) :
    after.node? (destination (fs.origin anchor) names) = some .directory := by
  obtain hentered | habove := destination_cases (fs.origin anchor) names
  · exact h.node?_of_mem _ hentered
  · exact h.node?_of_directory (htree.node?_above habove (htree.node?_origin anchor))

theorem follow_concat (fs : FileSystem) (anchor : Anchor) (names : List String) (name : String) :
    fs.follow ⟨anchor, names ++ [name]⟩ =
      if name = ".." then fs.walk (fs.origin anchor) (names ++ [name])
      else fs.walk (fs.origin anchor) names >>= fun directory =>
        if maxNameBytes < name.utf8ByteSize then .error .nameTooLong
        else .ok (directory ++ [name]) := by
  rw [follow, List.getLast?_concat, List.dropLast_concat, startOf_eq]
  by_cases hup : name = ".."
  · simp [hup]
  · simp [hup]

section

variable {fs : FileSystem} {anchor : Anchor} {names : List String} {name : String}

theorem Opens.concat {middle : FileSystem}
    (h : fs.Opens (entered (fs.origin anchor) names) middle)
    (hend : middle.node? (destination (fs.origin anchor) (names ++ [name])) = some .directory) :
    fs.Opens (entered (fs.origin anchor) (names ++ [name])) middle := by
  refine ⟨h.current, fun place => ?_⟩
  rw [entered_concat]
  by_cases hup : name = ".."
  · rw [if_pos hup, List.append_nil, h.node?]
  · rw [destination_concat, if_neg hup] at hend
    rw [if_neg hup]
    by_cases hplace : place = destination (fs.origin anchor) names ++ [name]
    · rw [hplace, hend, if_pos (by simp)]
    · rw [h.node?]
      simp [hplace]

theorem Opens.end_cases (htree : fs.IsTree)
    (hopen : fs.Unblocked (entered (fs.origin anchor) (names ++ [name]))) {middle : FileSystem}
    (h : fs.Opens (entered (fs.origin anchor) names) middle) :
    (name ≠ ".." ∧ middle.node? (destination (fs.origin anchor) (names ++ [name])) = none) ∨
      middle.node? (destination (fs.origin anchor) (names ++ [name])) = some .directory := by
  by_cases hup : name = ".."
  · have hsame : entered (fs.origin anchor) names =
        entered (fs.origin anchor) (names ++ [name]) := by
      rw [entered_concat, if_pos hup, List.append_nil]
    rw [hsame] at h
    exact .inr (h.node?_destination htree)
  · have hmem : destination (fs.origin anchor) (names ++ [name]) ∈
        entered (fs.origin anchor) (names ++ [name]) := by
      rw [entered_concat, destination_concat, if_neg hup, if_neg hup]
      exact List.mem_append_right _ List.mem_cons_self
    rw [h.node?]
    split
    · exact .inr rfl
    · cases hnode : fs.node? (destination (fs.origin anchor) (names ++ [name])) with
      | none => exact .inl ⟨hup, rfl⟩
      | some node =>
        cases node with
        | directory => exact .inr rfl
        | file content => exact absurd hnode (hopen _ hmem content)

variable (hfits : PathFits ⟨anchor, names ++ [name]⟩)
include hfits

theorem locate_concat {after : FileSystem}
    (hafter : fs.Opens (entered (fs.origin anchor) names) after) :
    after.locate ⟨anchor, names ++ [name]⟩ =
      .ok (destination (fs.origin anchor) (names ++ [name])) := by
  have hnames : NamesFit names := fun part hpart => hfits.names part (by simp [hpart])
  have hname : name.utf8ByteSize ≤ maxNameBytes := hfits.names name (by simp)
  rw [locate, hfits.fault, follow_concat, hafter.origin_eq, destination_concat]
  by_cases hup : name = ".."
  · rw [if_pos hup, if_pos hup, walk_ok hfits.names, destination_concat, if_pos hup]
    intro place hplace
    rw [entered_concat, if_pos hup, List.append_nil] at hplace
    exact hafter.node?_of_mem place hplace
  · rw [if_neg hup, if_neg hup, walk_ok hnames hafter.node?_of_mem, ok_bind,
      if_neg (Nat.not_lt.mpr hname)]

theorem locate_notFound (hopen : fs.Unblocked (entered (fs.origin anchor) names))
    (h : ¬∀ place ∈ entered (fs.origin anchor) names, fs.node? place = some .directory) :
    fs.locate ⟨anchor, names ++ [name]⟩ = .error .notFound := by
  have hnames : NamesFit names := fun part hpart => hfits.names part (by simp [hpart])
  rw [locate, hfits.fault, follow_concat]
  by_cases hup : name = ".."
  · have hentered : entered (fs.origin anchor) (names ++ [name]) =
        entered (fs.origin anchor) names := by
      rw [entered_concat, if_pos hup, List.append_nil]
    rw [if_pos hup]
    exact walk_notFound hfits.names (hentered ▸ hopen) (hentered ▸ h)
  · rw [if_neg hup, walk_notFound hnames hopen h, error_bind]

theorem ensureDirectory_concat (htree : fs.IsTree)
    (hopen : fs.Unblocked (entered (fs.origin anchor) (names ++ [name]))) {middle : FileSystem}
    (hmiddle : fs.Opens (entered (fs.origin anchor) names) middle) :
    ∃ after, middle.ensureDirectory ⟨anchor, names ++ [name]⟩ = (.ok (), after) ∧
      fs.Opens (entered (fs.origin anchor) (names ++ [name])) after := by
  have hlocate := locate_concat hfits hmiddle
  obtain ⟨hup, hnode⟩ | hnode := hmiddle.end_cases htree hopen
  · refine ⟨middle.put (destination (fs.origin anchor) (names ++ [name])) .directory, ?_, ?_, ?_⟩
    · simp [ensureDirectory, makeDirectory, hlocate, hnode]
    · exact hmiddle.current
    · intro place
      rw [destination_concat, if_neg hup, node?_put _ (by simp), hmiddle.node?, entered_concat,
        if_neg hup]
      by_cases hplace : place = destination (fs.origin anchor) names ++ [name]
      · simp [hplace]
      · simp [hplace]
  · have hafter := hmiddle.concat hnode
    have hwalk : middle.walk (middle.startOf ⟨anchor, names ++ [name]⟩) (names ++ [name]) =
        .ok (destination (fs.origin anchor) (names ++ [name])) := by
      rw [startOf_eq, hmiddle.origin_eq]
      exact walk_ok hfits.names hafter.node?_of_mem
    refine ⟨middle, ?_, hafter⟩
    simp [ensureDirectory, makeDirectory, hlocate, hnode, isDirectory, hwalk]

end

/-- Where no file stands in the way, a directory can be made with all that is missing above it. -/
theorem makeUpTo_opens {fs : FileSystem} (htree : fs.IsTree) (anchor : Anchor)
    (reversed : List String) (hfits : PathFits ⟨anchor, reversed.reverse⟩)
    (hopen : fs.Unblocked (entered (fs.origin anchor) reversed.reverse)) :
    ∃ after, fs.makeUpTo anchor reversed = (.ok (), after) ∧
      fs.Opens (entered (fs.origin anchor) reversed.reverse) after := by
  induction reversed with
  | nil =>
    refine ⟨fs, ?_, .refl (List.forall_mem_nil _)⟩
    have hlocate : fs.locate ⟨anchor, []⟩ = .ok (fs.origin anchor) := by
      rw [locate, show pathFault? ⟨anchor, []⟩ = none from hfits.fault]
      rfl
    have hwalk : fs.walk (fs.startOf ⟨anchor, []⟩) [] = .ok (fs.origin anchor) := rfl
    simp [makeUpTo, ensureDirectory, makeDirectory, hlocate, htree.node?_origin, isDirectory, hwalk]
  | cons name above ih =>
    rw [List.reverse_cons] at hfits hopen ⊢
    have hopen' : fs.Unblocked (entered (fs.origin anchor) above.reverse) := by
      intro place hplace
      refine hopen place ?_
      rw [entered_concat]
      exact List.mem_append_left _ hplace
    by_cases hall : ∀ place ∈ entered (fs.origin anchor) above.reverse,
        fs.node? place = some .directory
    · -- the way is open already, so that the first attempt tells all
      have hopens := Opens.refl hall
      obtain ⟨after, hafter, hopens'⟩ := ensureDirectory_concat hfits htree hopen hopens
      refine ⟨after, ?_, hopens'⟩
      have hlocate := locate_concat hfits hopens
      cases hnode : fs.node? (destination (fs.origin anchor) (above.reverse ++ [name])) with
      | none => simp [makeUpTo, makeDirectory, hlocate, hnode, hafter]
      | some node => simp [makeUpTo, makeDirectory, hlocate, hnode, hafter]
    · obtain ⟨middle, hmiddle, hopens⟩ := ih hfits.of_concat hopen'
      obtain ⟨after, hafter, hopens'⟩ := ensureDirectory_concat hfits htree hopen hopens
      refine ⟨after, ?_, hopens'⟩
      simp [makeUpTo, makeDirectory, locate_notFound hfits hopen' hall, hmiddle, hafter]

/-- Making a directory adds the missing places of its way as directories, and nothing else. -/
theorem makeDirectories_opens {fs : FileSystem} (htree : fs.IsTree) {path : Path}
    (hfits : PathFits path) (hopen : fs.Unblocked (entered (fs.startOf path) path.names)) :
    ∃ after, fs.makeDirectories path = (.ok (), after) ∧
      fs.Opens (entered (fs.startOf path) path.names) after := by
  have hspec := makeUpTo_opens htree path.anchor path.names.reverse
  rw [List.reverse_reverse] at hspec
  exact hspec hfits hopen

end SchemaGen.FileSystem
