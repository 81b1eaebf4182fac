import Mathlib.Logic.Relation
import SchemaGen.Options.Reader
import SchemaGen.Proofs.Options.Reach
import SchemaGen.Proofs.Pipeline

/-!
# Building a reader

A reader is built by visiting the files behind the option declarations, imports before importers.
`Visits` is this walk without a bound on its depth, together with the files that it hands to the
pool. A walk always comes to an end, and to one end only (`exists_visits`, `Visits.unique`). It hands
over no file twice, and in the order of the imports as far as the pool accepts them.
-/

namespace SchemaGen.Options

open Descriptor (File Pool isWritable latest?)
open Fallible

namespace Closure

def mark (closure : Closure) (name : String) : Closure :=
  { closure with visited := closure.visited ++ [name] }

/-- What adding a file hands to the pool: the file, unless it cannot be written out. -/
def handedBy (name : String) (file : File) : List String :=
  if isWritable Descriptor.Standard.fileDescriptor file.toRecords then [name] else []

/-- Visits to names one after the other, from a closure to an outcome. The second list holds the
names of the files that are handed to the pool on the way, refused ones included. -/
inductive Visits (files : OrderedMap File) :
    List String → Closure → List String → Except Failure Closure → Prop
  | done {closure : Closure} : Visits files [] closure [] (.ok closure)
  | seen {name : String} {more handed : List String} {closure : Closure}
      {outcome : Except Failure Closure} (visited : name ∈ closure.visited)
      (rest : Visits files more closure handed outcome) :
      Visits files (name :: more) closure handed outcome
  | standard {more handed : List String} {closure : Closure} {outcome : Except Failure Closure}
      (new : Descriptor.Standard.fileName ∉ closure.visited)
      (unknown : files.get? Descriptor.Standard.fileName = none)
      (rest : Visits files more
        { closure.mark Descriptor.Standard.fileName with pool := Descriptor.Standard.pool } handed
        outcome) :
      Visits files (Descriptor.Standard.fileName :: more) closure
        (Descriptor.Standard.fileName :: handed) outcome
  | absent {name : String} {more : List String} {closure : Closure}
      (new : name ∉ closure.visited) (unknown : files.get? name = none)
      (other : name ≠ Descriptor.Standard.fileName) :
      Visits files (name :: more) closure [] (.error (.missingImport name))
  | blocked {name : String} {more handed : List String} {closure : Closure} {file : File}
      {failure : Failure} (new : name ∉ closure.visited) (found : files.get? name = some file)
      (imports : Visits files file.dependencies (closure.mark name) handed (.error failure)) :
      Visits files (name :: more) closure handed (.error failure)
  | stopped {name : String} {more handed : List String} {closure after : Closure} {file : File}
      {failure : Failure} (new : name ∉ closure.visited) (found : files.get? name = some file)
      (imports : Visits files file.dependencies (closure.mark name) handed (.ok after))
      (failed : after.addFile name file = .error failure) :
      Visits files (name :: more) closure (handed ++ handedBy name file) (.error failure)
  | added {name : String} {more handed others : List String} {closure after next : Closure}
      {file : File} {outcome : Except Failure Closure} (new : name ∉ closure.visited)
      (found : files.get? name = some file)
      (imports : Visits files file.dependencies (closure.mark name) handed (.ok after))
      (accepted : after.addFile name file = .ok next)
      (rest : Visits files more next others outcome) :
      Visits files (name :: more) closure (handed ++ handedBy name file ++ others) outcome

theorem addFile_ok {closure next : Closure} {name : String} {file : File}
    (h : closure.addFile name file = .ok next) :
    handedBy name file = [name] ∧ next.visited = closure.visited ∧
      closure.pool.add file = .ok next.pool := by
  unfold addFile at h
  split at h
  · next hwritable =>
    split at h
    · next pool hadd =>
      cases h
      exact ⟨if_pos hwritable, rfl, hadd⟩
    · cases h
  · cases h

theorem addFile_of_add {closure : Closure} {name : String} {file : File} {pool : Pool}
    (hwritable : isWritable Descriptor.Standard.fileDescriptor file.toRecords = true)
    (hadd : closure.pool.add file = .ok pool) :
    closure.addFile name file = .ok { closure with pool } := by
  unfold isWritable at hwritable
  rw [addFile, if_pos hwritable, hadd]

theorem handedBy_cases (name : String) (file : File) :
    handedBy name file = [name] ∨ handedBy name file = [] := by
  unfold handedBy
  split
  · exact .inl rfl
  · exact .inr rfl

section

variable {files : OrderedMap File} {names handed : List String} {closure : Closure}
  {outcome : Except Failure Closure}

-- ---------------------------------------------------------------------------
-- One end only
-- ---------------------------------------------------------------------------

theorem Visits.unique (h : Visits files names closure handed outcome) {others : List String}
    {other : Except Failure Closure} (h' : Visits files names closure others other) :
    handed = others ∧ outcome = other := by
  induction h generalizing others other with
  | done =>
    cases h'
    exact ⟨rfl, rfl⟩
  | seen hvisited _ ih =>
    cases h' with
    | seen _ hrest => exact ih hrest
    | standard hnew => exact absurd hvisited hnew
    | absent hnew => exact absurd hvisited hnew
    | blocked hnew => exact absurd hvisited hnew
    | stopped hnew => exact absurd hvisited hnew
    | added hnew => exact absurd hvisited hnew
  | standard hnew hnone _ ih =>
    cases h' with
    | standard _ _ hrest => simpa using ih hrest
    | absent _ _ hother => exact absurd rfl hother
    | _ => simp_all
  | absent hnew hnone hother =>
    cases h' with
    | absent => exact ⟨rfl, rfl⟩
    | standard => exact absurd rfl hother
    | _ => simp_all
  | blocked hnew hfound _ ih =>
    cases h' with
    | seen hvisited => exact absurd hvisited hnew
    | blocked _ hfound' himports =>
      cases hfound.symm.trans hfound'
      simpa using ih himports
    | stopped _ hfound' himports =>
      cases hfound.symm.trans hfound'
      cases (ih himports).2
    | added _ hfound' himports =>
      cases hfound.symm.trans hfound'
      cases (ih himports).2
    | _ => simp_all
  | stopped hnew hfound _ hfailed ih =>
    cases h' with
    | seen hvisited => exact absurd hvisited hnew
    | blocked _ hfound' himports =>
      cases hfound.symm.trans hfound'
      cases (ih himports).2
    | stopped _ hfound' himports hfailed' =>
      cases hfound.symm.trans hfound'
      obtain ⟨rfl, hafter⟩ := ih himports
      cases hafter
      cases hfailed.symm.trans hfailed'
      exact ⟨rfl, rfl⟩
    | added _ hfound' himports haccepted =>
      cases hfound.symm.trans hfound'
      cases (ih himports).2
      cases hfailed.symm.trans haccepted
    | _ => simp_all
  | added hnew hfound _ haccepted _ ih ihrest =>
    cases h' with
    | seen hvisited => exact absurd hvisited hnew
    | blocked _ hfound' himports =>
      cases hfound.symm.trans hfound'
      cases (ih himports).2
    | stopped _ hfound' himports hfailed =>
      cases hfound.symm.trans hfound'
      cases (ih himports).2
      cases haccepted.symm.trans hfailed
    | added _ hfound' himports haccepted' hrest =>
      cases hfound.symm.trans hfound'
      obtain ⟨rfl, hafter⟩ := ih himports
      cases hafter
      cases haccepted.symm.trans haccepted'
      obtain ⟨rfl, rfl⟩ := ihrest hrest
      exact ⟨rfl, rfl⟩
    | _ => simp_all

-- ---------------------------------------------------------------------------
-- What is handed over
-- ---------------------------------------------------------------------------

/-- No file is handed over twice, none under a name that had been visited, and a walk that succeeds
has handed over what it has visited. -/
theorem Visits.nodup (h : Visits files names closure handed outcome) :
    handed.Nodup ∧ (∀ name ∈ handed, name ∉ closure.visited) ∧
      ∀ after, outcome = .ok after →
        ∃ fresh, after.visited = closure.visited ++ fresh ∧ fresh.Perm handed := by
  induction h with
  | done => simp
  | seen _ _ ih => exact ih
  | @standard more handed closure outcome hnew _ _ ih =>
    obtain ⟨hnodup, hfresh, hafter⟩ := ih
    simp only [mark, List.mem_append, List.mem_singleton, not_or] at hfresh
    refine ⟨List.nodup_cons.mpr ⟨fun hmem => (hfresh _ hmem).2 rfl, hnodup⟩, ?_, ?_⟩
    · rintro name (_ | ⟨_, hmem⟩)
      · exact hnew
      · exact (hfresh name hmem).1
    · intro after houtcome
      obtain ⟨fresh, hvisited, hperm⟩ := hafter after houtcome
      refine ⟨Descriptor.Standard.fileName :: fresh, ?_, hperm.cons _⟩
      simpa [mark] using hvisited
  | absent => simp
  | blocked _ _ _ ih =>
    obtain ⟨hnodup, hfresh, -⟩ := ih
    simp only [mark, List.mem_append, not_or] at hfresh
    exact ⟨hnodup, fun name hmem => (hfresh name hmem).1, by simp⟩
  | @stopped name more handed closure after file failure hnew _ _ _ ih =>
    obtain ⟨hnodup, hfresh, -⟩ := ih
    simp only [mark, List.mem_append, List.mem_singleton, not_or] at hfresh
    refine ⟨?_, ?_, by simp⟩
    · rcases handedBy_cases name file with hone | hnone
      · rw [hone]
        simpa [List.nodup_append, hnodup] using fun other hmem => (hfresh other hmem).2
      · simpa [hnone] using hnodup
    · intro other hmem
      rcases List.mem_append.mp hmem with hmem | hmem
      · exact (hfresh other hmem).1
      · rcases handedBy_cases name file with hone | hnone
        · simp_all
        · simp_all
  | @added name more handed others closure after next file outcome hnew _ _ haccepted _ ih ihrest =>
    obtain ⟨hnodup, hfresh, hafter⟩ := ih
    obtain ⟨hnodup', hfresh', hlast⟩ := ihrest
    obtain ⟨hone, hnext, -⟩ := addFile_ok haccepted
    obtain ⟨fresh, hvisited, hperm⟩ := hafter after rfl
    rw [hnext, hvisited] at hfresh' hlast
    simp only [mark, List.mem_append, List.mem_singleton, not_or] at hfresh hfresh'
    rw [hone]
    refine ⟨?_, ?_, ?_⟩
    · simp only [List.append_assoc, List.singleton_append, List.nodup_append, List.nodup_cons]
      refine ⟨hnodup, ⟨fun hmem => (hfresh' _ hmem).1.2 rfl, hnodup'⟩, ?_⟩
      rintro earlier hmem later hlater rfl
      rcases List.mem_cons.mp hlater with rfl | hlater
      · exact (hfresh _ hmem).2 rfl
      · exact (hfresh' _ hlater).2 (hperm.mem_iff.mpr hmem)
    · intro other hmem
      simp only [List.mem_append, List.mem_singleton] at hmem
      rcases hmem with (hmem | rfl) | hmem
      · exact (hfresh other hmem).1
      · exact hnew
      · exact (hfresh' other hmem).1.1
    · intro last houtcome
      obtain ⟨more, hmore, hperm'⟩ := hlast last houtcome
      refine ⟨name :: fresh ++ more, by simp [hmore, mark], ?_⟩
      rw [List.append_assoc, List.singleton_append]
      exact ((hperm.append hperm').cons name).trans List.perm_middle.symm

theorem Visits.within (h : Visits files names closure handed outcome) {holds : String → Prop}
    (hclosed : Tour.Closed files holds) (hnames : ∀ name ∈ names, holds name) :
    ∀ name ∈ handed, holds name ∧
      (name = Descriptor.Standard.fileName ∨ ∃ file, files.get? name = some file) := by
  induction h with
  | done => simp
  | seen _ _ ih => exact ih (List.forall_mem_cons.mp hnames).2
  | standard _ _ _ ih =>
    obtain ⟨hname, hmore⟩ := List.forall_mem_cons.mp hnames
    exact List.forall_mem_cons.mpr ⟨⟨hname, .inl rfl⟩, ih hmore⟩
  | absent => simp
  | blocked _ hfound _ ih =>
    exact ih (hclosed _ _ (List.forall_mem_cons.mp hnames).1 hfound)
  | @stopped name _ _ _ _ file _ _ hfound _ _ ih =>
    have hname := (List.forall_mem_cons.mp hnames).1
    intro other hmem
    rcases List.mem_append.mp hmem with hmem | hmem
    · exact ih (hclosed _ _ hname hfound) other hmem
    · rcases handedBy_cases name file with hone | hnone
      · obtain rfl : other = name := by simpa [hone] using hmem
        exact ⟨hname, .inr ⟨file, hfound⟩⟩
      · simp [hnone] at hmem
  | @added name _ _ _ _ _ _ file _ _ hfound _ haccepted _ ih ihrest =>
    obtain ⟨hname, hmore⟩ := List.forall_mem_cons.mp hnames
    rw [(addFile_ok haccepted).1]
    intro other hmem
    simp only [List.mem_append, List.mem_singleton] at hmem
    rcases hmem with (hmem | rfl) | hmem
    · exact ih (hclosed _ _ hname hfound) other hmem
    · exact ⟨hname, .inr ⟨file, hfound⟩⟩
    · exact ihrest hmore other hmem

-- ---------------------------------------------------------------------------
-- Every walk ends
-- ---------------------------------------------------------------------------

/-- The walk with a bound on its depth is the walk without one, if the bound leaves room for the
files not visited yet: each step down marks one of these. -/
theorem exists_visits {depth : Nat} (names : List String) (closure : Closure)
    (hdepth : Tour.pending files ⟨closure.visited, []⟩ < depth) :
    ∃ handed, Visits files names closure handed
      (names.foldlM (fun state name => visit files depth name state) closure) := by
  induction depth generalizing names closure with
  | zero => exact absurd hdepth (Nat.not_lt_zero _)
  | succ depth ih =>
    induction names generalizing closure with
    | nil => exact ⟨[], .done⟩
    | cons name more ihmore =>
      rw [List.foldlM_cons, visit]
      by_cases hseen : name ∈ closure.visited
      · obtain ⟨handed, hrest⟩ := ihmore closure hdepth
        exact ⟨handed, .seen hseen (by simpa [hseen] using hrest)⟩
      · have hgrown : ∀ next : Closure, closure.visited ⊆ next.visited →
            Tour.pending files ⟨next.visited, []⟩ < depth + 1 := by
          intro next hsubset
          have hle : Tour.pending files ⟨next.visited, []⟩ ≤
              Tour.pending files ⟨closure.visited, []⟩ := Tour.pending_le hsubset
          exact Nat.lt_of_le_of_lt hle hdepth
        cases hfile : files.get? name with
        | none =>
          by_cases hstandard : name = Descriptor.Standard.fileName
          · subst hstandard
            obtain ⟨handed, hrest⟩ := ihmore
              { closure.mark Descriptor.Standard.fileName with pool := Descriptor.Standard.pool }
              (hgrown _ (List.subset_append_left _ _))
            exact ⟨_, .standard hseen hfile (by simpa [hseen, mark] using hrest)⟩
          · exact ⟨[], by simpa [hseen, hstandard] using .absent hseen hfile hstandard⟩
        | some file =>
          have hless : ((Tour.mk closure.visited []).mark name).pending files <
              (Tour.mk closure.visited []).pending files := Tour.pending_mark_lt hfile hseen
          obtain ⟨handed, himports⟩ := ih file.dependencies (closure.mark name)
            (Nat.lt_of_lt_of_le hless (Nat.le_of_lt_succ hdepth))
          simp only [List.contains_eq_mem, hseen, decide_false, Bool.false_eq_true, if_false]
          rw [← mark]
          cases hafter : file.dependencies.foldlM
              (fun state dependency => visit files depth dependency state)
              (closure.mark name) with
          | error failure => exact ⟨handed, .blocked hseen hfile (hafter ▸ himports)⟩
          | ok after =>
            rw [hafter] at himports
            rw [ok_bind]
            cases hadd : after.addFile name file with
            | error failure => exact ⟨_, .stopped hseen hfile himports hadd⟩
            | ok next =>
              obtain ⟨fresh, hvisited, -⟩ := himports.nodup.2.2 after rfl
              have hsubset : closure.visited ⊆ next.visited := by
                rw [(addFile_ok hadd).2.1, hvisited, mark, List.append_assoc]
                exact List.subset_append_left _ _
              obtain ⟨others, hrest⟩ := ihmore next (hgrown next hsubset)
              exact ⟨_, .added hseen hfile himports hadd hrest⟩

-- ---------------------------------------------------------------------------
-- Imports first
-- ---------------------------------------------------------------------------

/-- Names in an order in which each comes after what its file imports. The earlier names count as
having come before. -/
def Ordered (files : OrderedMap File) : (earlier : List String) → List String → Prop
  | _, [] => True
  | earlier, name :: more =>
    (∀ file, files.get? name = some file → file.dependencies ⊆ earlier) ∧
      Ordered files (earlier ++ [name]) more

theorem ordered_append {earlier first second : List String} :
    Ordered files earlier (first ++ second) ↔
      Ordered files earlier first ∧ Ordered files (earlier ++ first) second := by
  induction first generalizing earlier with
  | nil => simp [Ordered]
  | cons name more ih => simp [Ordered, ih, and_assoc]

theorem add_files {pool after : Pool} {file : File} (h : pool.add file = .ok after) :
    file.dependencies ⊆ pool.files ∧ after.files = pool.files ++ [file.nameText] := by
  unfold Pool.add at h
  split at h
  · cases h
  · next hnone =>
    split at h
    · cases h
    · dsimp only at h
      split at h
      · cases h
      · cases h
        refine ⟨fun dependency hmem => ?_, rfl⟩
        simpa using List.find?_eq_none.mp hnone dependency hmem

/-- Where the standard descriptors do not come in again, the pool holds what it held and what is
handed over, and has taken no file before what that imports. -/
theorem Visits.ordered (h : Visits files names closure handed outcome)
    (hnamed : ∀ name file, files.get? name = some file → file.nameText = name)
    (hstandard : files.get? Descriptor.Standard.fileName = none →
      Descriptor.Standard.fileName ∈ closure.visited) :
    ∀ after, outcome = .ok after → after.pool.files = closure.pool.files ++ handed ∧
      Ordered files closure.pool.files handed := by
  induction h with
  | done =>
    rintro after ⟨⟩
    simp [Ordered]
  | seen _ _ ih => exact ih hstandard
  | standard hnew hnone => exact absurd (hstandard hnone) hnew
  | absent => simp
  | blocked => simp
  | stopped => simp
  | @added name _ handed others closure after next file _ _ hfound himports haccepted _ ih ihrest =>
    obtain ⟨hone, hnext, hadd⟩ := addFile_ok haccepted
    obtain ⟨fresh, hvisited, -⟩ := himports.nodup.2.2 after rfl
    obtain ⟨hfiles, hordered⟩ :=
      ih (fun hnone => List.mem_append_left _ (hstandard hnone)) after rfl
    obtain ⟨hdependencies, hnextFiles⟩ := add_files hadd
    rw [hnamed name file hfound] at hnextFiles
    intro last houtcome
    obtain ⟨hlast, hrest⟩ := ihrest
      (fun hnone => by simp [hnext, hvisited, mark, hstandard hnone]) last houtcome
    rw [hnextFiles, hfiles] at hlast hrest
    refine ⟨by simpa [hone, mark] using hlast, ?_⟩
    rw [hone, ordered_append, ordered_append]
    refine ⟨⟨hordered, ?_, trivial⟩, by simpa [mark] using hrest⟩
    intro found hsame
    cases hfound.symm.trans hsame
    rwa [hfiles] at hdependencies

end

theorem Visits.ordered_start {files : OrderedMap File} {names handed : List String}
    {after : Closure}
    (h : Visits files (Descriptor.Standard.fileName :: names) start handed (.ok after))
    (hnamed : ∀ name file, files.get? name = some file → file.nameText = name) :
    after.pool.files = handed ∧ Ordered files [] handed := by
  cases h with
  | seen hvisited => simp [start] at hvisited
  | standard _ hnone hrest =>
    obtain ⟨hfiles, hordered⟩ := hrest.ordered hnamed (fun _ => by simp [mark]) after rfl
    refine ⟨hfiles, fun file hfound => ?_, hordered⟩
    rw [hnone] at hfound
    cases hfound
  | added hnew hfound himports haccepted hrest =>
    refine (Visits.added hnew hfound himports haccepted hrest).ordered hnamed ?_ after rfl
    intro hnone
    rw [hfound] at hnone
    cases hnone

theorem Visits.load {files : OrderedMap File} {names handed : List String}
    {outcome : Except Failure Closure}
    (h : Visits files (Descriptor.Standard.fileName :: names) start handed outcome) :
    load files names = outcome.map Closure.pool := by
  obtain ⟨others, hothers⟩ := exists_visits (Descriptor.Standard.fileName :: names) start
    (Tour.pending_start_lt files)
  rw [Closure.load, ← (h.unique hothers).2]
  cases outcome <;> rfl

/-- A walk that succeeds has handed over all that can be reached. -/
theorem Visits.mem_iff {files : OrderedMap File} {roots handed : List String} {after : Closure}
    (h : Visits files roots start handed (.ok after)) (name : String) :
    name ∈ handed ↔ Reached files roots name := by
  have hstart : (Tour.mk [] []).perform = .ok start := rfl
  have hwalk := perform_bind_foldlM (perform_bind_visit files (files.entries.length + 1)) roots
    (Tour.mk [] [])
  rw [hstart, ok_bind] at hwalk
  obtain ⟨others, hothers⟩ := exists_visits roots start (Tour.pending_start_lt files)
  have hafter := hwalk.symm.trans (h.unique hothers).2.symm
  obtain ⟨fresh, hvisited, hperm⟩ := h.nodup.2.2 after rfl
  have hfresh : after.visited = fresh := hvisited
  rw [← hperm.mem_iff, ← hfresh, Tour.visited_of_perform hafter]
  exact (tour_spec files roots).2.1 name

def Imports (files : OrderedMap File) (name dependency : String) : Prop :=
  ∃ file, files.get? name = some file ∧ dependency ∈ file.dependencies

theorem Ordered.idxOf_lt {files : OrderedMap File} {handed : List String}
    (hordered : Ordered files [] handed) (hnodup : handed.Nodup) {name dependency : String}
    (hname : name ∈ handed) (himports : Imports files name dependency) :
    dependency ∈ handed ∧ handed.idxOf dependency < handed.idxOf name := by
  obtain ⟨file, hfound, hmem⟩ := himports
  obtain ⟨before, after, rfl⟩ := List.append_of_mem hname
  have hbefore : dependency ∈ before := by
    simpa using (ordered_append.mp hordered).2.1 file hfound hmem
  have hnotMem : name ∉ before := fun h =>
    (List.nodup_append.mp hnodup).2.2 name h name List.mem_cons_self rfl
  refine ⟨List.mem_append_left _ hbefore, ?_⟩
  rw [List.idxOf_append_of_mem hbefore, List.idxOf_append_of_notMem hnotMem]
  simpa using List.idxOf_lt_length_iff.mpr hbefore

theorem Ordered.acyclic {files : OrderedMap File} {handed : List String}
    (hordered : Ordered files [] handed) (hnodup : handed.Nodup) {name : String}
    (hname : name ∈ handed) : ¬Relation.TransGen (Imports files) name name := by
  have hdown : ∀ target, Relation.TransGen (Imports files) name target →
      target ∈ handed ∧ handed.idxOf target < handed.idxOf name := by
    intro target hpath
    induction hpath with
    | single himports => exact hordered.idxOf_lt hnodup hname himports
    | tail _ himports ih =>
      obtain ⟨hmem, hlt⟩ := hordered.idxOf_lt hnodup ih.1 himports
      exact ⟨hmem, Nat.lt_trans hlt ih.2⟩
  exact fun hcycle => Nat.lt_irrefl _ (hdown name hcycle).2

end Closure

-- ---------------------------------------------------------------------------
-- Readers
-- ---------------------------------------------------------------------------

open Closure (Visits Reached Imports)

/-- The options that files declare. Of files with one name the last one counts. -/
def declared (files : List File) : List Declaration :=
  Declaration.ofFiles (Reader.byName files).values

def roots (files : List File) : List String :=
  Descriptor.Standard.fileName :: (declared files).map Declaration.fileName

/-- How a reader is built: the files that are handed to the pool, and the outcome. -/
inductive Builds (files : List File) : List String → Except Failure Reader → Prop
  | undeclared (nothing : declared files = []) :
      Builds files [] (.ok ⟨[], { types := [] }, [], []⟩)
  | failed {handed : List String} {failure : Failure} (something : declared files ≠ [])
      (walk : Visits (Reader.byName files) (roots files) Closure.start handed (.error failure)) :
      Builds files handed (.error failure)
  | loaded {handed : List String} {closure : Closure} (something : declared files ≠ [])
      (walk : Visits (Reader.byName files) (roots files) Closure.start handed (.ok closure)) :
      Builds files handed (Reader.ofPool closure.pool (declared files))

theorem Reader.ofFiles_of_undeclared {files : List File} (h : declared files = []) :
    Reader.ofFiles files = .ok ⟨[], { types := [] }, [], []⟩ := by
  unfold declared at h
  simp [Reader.ofFiles, h]

theorem Reader.ofFiles_of_declared {files : List File} (h : declared files ≠ []) :
    Reader.ofFiles files =
      Closure.load (Reader.byName files) ((declared files).map Declaration.fileName) >>= fun pool =>
        Reader.ofPool pool (declared files) := by
  unfold Reader.ofFiles
  dsimp only
  split
  · next hnil => exact absurd hnil h
  · rfl

theorem exists_builds (files : List File) : ∃ handed, Builds files handed (Reader.ofFiles files) := by
  by_cases hnone : declared files = []
  · exact ⟨[], Reader.ofFiles_of_undeclared hnone ▸ .undeclared hnone⟩
  · obtain ⟨outcome, handed, hwalk⟩ : ∃ outcome handed,
        Visits (Reader.byName files) (roots files) Closure.start handed outcome :=
      ⟨_, Closure.exists_visits (roots files) Closure.start
        (Closure.Tour.pending_start_lt (Reader.byName files))⟩
    refine ⟨handed, ?_⟩
    rw [Reader.ofFiles_of_declared hnone, hwalk.load]
    cases outcome with
    | error failure => exact .failed hnone hwalk
    | ok closure => exact .loaded hnone hwalk

theorem Builds.unique {files : List File} {handed others : List String}
    {outcome other : Except Failure Reader} (h : Builds files handed outcome)
    (h' : Builds files others other) : handed = others ∧ outcome = other := by
  cases h with
  | undeclared hnone =>
    cases h' with
    | undeclared => exact ⟨rfl, rfl⟩
    | _ => contradiction
  | failed hsome hwalk =>
    cases h' with
    | undeclared hnone => contradiction
    | failed _ hwalk' => simpa using hwalk.unique hwalk'
    | loaded _ hwalk' => cases (hwalk.unique hwalk').2
  | loaded hsome hwalk =>
    cases h' with
    | undeclared hnone => contradiction
    | failed _ hwalk' => cases (hwalk.unique hwalk').2
    | loaded _ hwalk' =>
      obtain ⟨rfl, hsame⟩ := hwalk.unique hwalk'
      cases hsame
      exact ⟨rfl, rfl⟩

/-- What is handed over when a reader is built, and what that means for the outcome. -/
structure InOrder (files : List File) (handed : List String) (outcome : Except Failure Reader) :
    Prop where
  once : handed.Nodup
  reached : ∀ name ∈ handed, Reached (Reader.byName files) (roots files) name
  complete : declared files ≠ [] → ∀ reader, outcome = .ok reader →
    ∀ name, Reached (Reader.byName files) (roots files) name → name ∈ handed
  pooled : declared files ≠ [] → ∀ reader, outcome = .ok reader → ∃ pool,
    Closure.load (Reader.byName files) ((declared files).map Declaration.fileName) = .ok pool ∧
      pool.files = handed ∧ Reader.ofPool pool (declared files) = .ok reader
  importsFirst : ∀ reader, outcome = .ok reader → ∀ before name after file,
    handed = before ++ name :: after → latest? files name = some file →
      file.dependencies ⊆ before
  absent : declared files ≠ [] → ∀ name, Reached (Reader.byName files) (roots files) name →
    name ≠ Descriptor.Standard.fileName → latest? files name = none →
      ∃ failure, outcome = .error failure
  cyclic : declared files ≠ [] → ∀ name, Reached (Reader.byName files) (roots files) name →
    Relation.TransGen (Imports (Reader.byName files)) name name → ∃ failure, outcome = .error failure
  undeclared : declared files = [] → handed = [] ∧ ∃ reader, outcome = .ok reader

theorem Builds.inOrder {files : List File} {handed : List String}
    {outcome : Except Failure Reader} (h : Builds files handed outcome) :
    InOrder files handed outcome := by
  have hnamed : ∀ name file, (Reader.byName files).get? name = some file → file.nameText = name := by
    intro name file hfound
    rw [Descriptor.get?_byName] at hfound
    exact Descriptor.nameText_of_latest? hfound
  have hroots : ∀ name ∈ roots files, Reached (Reader.byName files) (roots files) name :=
    fun name hmem => .root hmem
  have hclosed := Closure.Tour.closed_reached (Reader.byName files) (roots files)
  cases h with
  | undeclared hnone => constructor <;> simp [hnone]
  | @failed handed failure hsome hwalk =>
    constructor
    case once => exact hwalk.nodup.1
    case reached => exact fun name hmem => (hwalk.within hclosed hroots name hmem).1
    case complete => simp
    case pooled => simp
    case importsFirst => simp
    case absent => exact fun _ _ _ _ _ => ⟨failure, rfl⟩
    case cyclic => exact fun _ _ _ _ => ⟨failure, rfl⟩
    case undeclared => exact fun hnone => absurd hnone hsome
  | loaded hsome hwalk =>
    obtain ⟨hfiles, hordered⟩ := hwalk.ordered_start hnamed
    have hnodup := hwalk.nodup.1
    constructor
    case once => exact hnodup
    case reached => exact fun name hmem => (hwalk.within hclosed hroots name hmem).1
    case complete => exact fun _ _ _ name hreached => (hwalk.mem_iff name).mpr hreached
    case pooled => exact fun _ _ houtcome => ⟨_, hwalk.load, hfiles, houtcome⟩
    case importsFirst =>
      rintro _ _ before name after file rfl hfound
      rw [← Descriptor.get?_byName] at hfound
      simpa using (Closure.ordered_append.mp hordered).2.1 file hfound
    case absent =>
      -- all that can be reached has been handed over, and so is known or standard
      intro _ name hreached hother hnone
      obtain hsame | ⟨file, hfound⟩ :=
        (hwalk.within hclosed hroots name ((hwalk.mem_iff name).mpr hreached)).2
      · exact absurd hsame hother
      · rw [Descriptor.get?_byName, hnone] at hfound
        cases hfound
    case cyclic =>
      intro _ name hreached hcycle
      exact absurd hcycle (hordered.acyclic hnodup ((hwalk.mem_iff name).mpr hreached))
    case undeclared => exact fun hnone => absurd hnone hsome

/-- Building a reader ends, in one way, with the outcome that `Reader.ofFiles` gives, and hands the
files behind the declarations to the pool in the order of their imports. On success these are the
files of the pool. -/
theorem ofFiles_inOrder (files : List File) :
    (∃ handed, Builds files handed (Reader.ofFiles files)) ∧
      ∀ handed outcome, Builds files handed outcome →
        outcome = Reader.ofFiles files ∧ InOrder files handed outcome := by
  obtain ⟨handed, hbuilds⟩ := exists_builds files
  refine ⟨⟨handed, hbuilds⟩, ?_⟩
  intro others outcome hothers
  exact ⟨(hothers.unique hbuilds).2, hothers.inOrder⟩

def topFile : File where
  name := some "top.proto"
  dependencies := ["left.proto", "right.proto"]
  extensions := [
    { name := some "mongoose_unique", extendee := some ".google.protobuf.FieldOptions",
      number := some 1000, type := some .bool }]

def leftFile : File where
  name := some "left.proto"
  dependencies := ["base.proto"]

/-- Two ways lead from the declaring file to the base. The option messages are the request's own. -/
def diamond : List File := [
  topFile, leftFile,
  { name := some "right.proto", dependencies := ["google/protobuf/descriptor.proto", "base.proto"] },
  { name := some "aside.proto", dependencies := ["top.proto"] },
  { name := some "base.proto" },
  { name := some "google/protobuf/descriptor.proto", package := some "google.protobuf",
    messages := [
      { name := some "FieldOptions", ranges := [{ start := some 1000, stop := some 2000 }] },
      { name := some "MessageOptions" }] }]

theorem ofFiles_diamond :
    ∃ handed reader, Builds diamond handed (.ok reader) ∧ handed.count "base.proto" = 1 ∧
      ∀ before after, handed = before ++ "top.proto" :: after →
        ["left.proto", "right.proto"] ⊆ before := by
  obtain ⟨reader, hreader⟩ := exists_ok
    (by decide +kernel : (Reader.ofFiles diamond).toOption.isSome = true)
  obtain ⟨⟨handed, hbuilds⟩, hall⟩ := ofFiles_inOrder diamond
  rw [hreader] at hbuilds
  have hordered := (hall handed (.ok reader) hbuilds).2
  have htop : Reached (Reader.byName diamond) (roots diamond) "top.proto" := .root (by decide)
  have hleft : Reached (Reader.byName diamond) (roots diamond) "left.proto" :=
    .imported htop (rfl : _ = some topFile) (by decide)
  have hbase : Reached (Reader.byName diamond) (roots diamond) "base.proto" :=
    .imported hleft (rfl : _ = some leftFile) (by decide)
  refine ⟨handed, reader, hbuilds, ?_, ?_⟩
  · have hmem := hordered.complete (by decide) reader rfl "base.proto" hbase
    exact List.count_eq_one_of_mem hordered.once hmem
  · intro before after hhanded
    exact hordered.importsFirst reader rfl before "top.proto" after topFile hhanded rfl

end SchemaGen.Options
