import SchemaGen.Options.Closure
import SchemaGen.Proofs.Fallible

/-!
# The order of loading

Which files are added to a pool, and in which order, is settled by the imports alone: `loadOrder`
lists the steps, and `load_eq` says that loading is performing them one after the other. A load can
therefore fail at one of its steps only, after those before it have succeeded.
-/

namespace SchemaGen

def Descriptor.isWritable (type : String) (records : List Wire.Record) : Bool :=
  Descriptor.Standard.schema.complete Wire.Schema.maxWrittenDepth type records

namespace Options.Closure

open Descriptor (File Pool isWritable)
open Fallible

inductive Step where
  | add (name : String) (file : File)
  | standard
  | absent (name : String)

/-- Takes a step. A file is written out before it is added. -/
def Step.perform (pool : Pool) : Step → Except Failure Pool
  | add name file =>
    if isWritable Descriptor.Standard.fileDescriptor file.toRecords then
      match pool.add file with
      | .ok pool => .ok pool
      | .error reason => .error (.unloadable name reason)
    else .error .incomplete
  | standard => .ok Descriptor.Standard.pool
  | absent name => .error (.missingImport name)

/-- The names visited so far, and the steps taken for them. -/
structure Tour where
  visited : List String
  steps : List Step

namespace Tour

def mark (tour : Tour) (name : String) : Tour := { tour with visited := tour.visited ++ [name] }

def record (tour : Tour) (step : Step) : Tour := { tour with steps := tour.steps ++ [step] }

def visit (files : OrderedMap File) : (depth : Nat) → String → Tour → Tour
  | 0, _, tour => tour
  | depth + 1, name, tour =>
    if tour.visited.contains name then tour
    else
      match files.get? name with
      | none =>
        (tour.mark name).record
          (if name = Descriptor.Standard.fileName then .standard else .absent name)
      | some file =>
        (file.dependencies.foldl (fun state dependency => visit files depth dependency state)
          (tour.mark name)).record (.add name file)

def perform (tour : Tour) : Except Failure Closure := do
  let pool ← tour.steps.foldlM Step.perform Pool.empty
  return ⟨tour.visited, pool⟩

theorem perform_mark (tour : Tour) (name : String) :
    (tour.mark name).perform = do
      let closure ← tour.perform
      return { closure with visited := closure.visited ++ [name] } := by
  simp only [perform, mark, bind_assoc, pure_bind]

theorem perform_record (tour : Tour) (step : Step) :
    (tour.record step).perform = do
      let closure ← tour.perform
      let pool ← step.perform closure.pool
      return { closure with pool } := by
  simp only [perform, record, List.foldlM_append, List.foldlM_cons, List.foldlM_nil, bind_assoc,
    pure_bind, bind_pure]

theorem visited_of_perform {tour : Tour} {closure : Closure} (h : tour.perform = .ok closure) :
    closure.visited = tour.visited := by
  obtain ⟨pool, -, h⟩ := bind_eq_ok.mp h
  cases h
  rfl

end Tour

theorem addFile_eq (closure : Closure) (name : String) (file : File) :
    closure.addFile name file = do
      let pool ← (Step.add name file).perform closure.pool
      return { closure with pool } := by
  rw [addFile, Step.perform, isWritable]
  split
  · cases closure.pool.add file <;> rfl
  · rfl

theorem perform_bind_foldlM {files : OrderedMap File} {depth : Nat}
    (hvisit : ∀ name (tour : Tour),
      (tour.perform >>= fun closure => visit files depth name closure) =
        (tour.visit files depth name).perform) (names : List String) (tour : Tour) :
    (tour.perform >>= fun closure =>
        names.foldlM (fun state name => visit files depth name state) closure) =
      (names.foldl (fun state name => state.visit files depth name) tour).perform := by
  induction names generalizing tour with
  | nil => exact bind_pure _
  | cons name more ih =>
    simp only [List.foldlM_cons, List.foldl_cons]
    rw [← bind_assoc, hvisit, ih]

theorem perform_bind_visit (files : OrderedMap File) (depth : Nat) (name : String) (tour : Tour) :
    (tour.perform >>= fun closure => visit files depth name closure) =
      (tour.visit files depth name).perform := by
  induction depth generalizing name tour with
  | zero => exact bind_pure _
  | succ depth ih =>
    by_cases hseen : tour.visited.contains name = true
    · -- nothing is done for the name on either side
      rw [Tour.visit, if_pos hseen]
      conv_rhs => rw [← bind_pure tour.perform]
      refine bind_congr_ok fun closure hclosure => ?_
      rw [visit, Tour.visited_of_perform hclosure, if_pos hseen]
      rfl
    · cases hfile : files.get? name with
      | none =>
        -- the name is one step
        simp only [Tour.visit, if_neg hseen, hfile, Tour.perform_record, Tour.perform_mark,
          bind_assoc, pure_bind]
        refine bind_congr_ok fun closure hclosure => ?_
        rw [visit, Tour.visited_of_perform hclosure, if_neg hseen, hfile]
        by_cases hstandard : name = Descriptor.Standard.fileName
        · simp [hstandard, Step.perform]
        · simp [hstandard, Step.perform]
      | some file =>
        -- the imports come first, by the induction on the depth, and then the file
        simp only [Tour.visit, if_neg hseen, hfile, Tour.perform_record,
          ← perform_bind_foldlM ih, Tour.perform_mark, bind_assoc, pure_bind]
        refine bind_congr_ok fun closure hclosure => ?_
        rw [visit, Tour.visited_of_perform hclosure, if_neg hseen, hfile]
        simp only [addFile_eq]

def loadOrder (files : OrderedMap File) (names : List String) : List Step :=
  ((Descriptor.Standard.fileName :: names).foldl
    (fun tour name => tour.visit files (files.entries.length + 1) name) (Tour.mk [] [])).steps

theorem load_eq (files : OrderedMap File) (names : List String) :
    load files names = (loadOrder files names).foldlM Step.perform Pool.empty := by
  have hstart : (Tour.mk [] []).perform = .ok start := rfl
  have htour := perform_bind_foldlM (perform_bind_visit files (files.entries.length + 1))
    (Descriptor.Standard.fileName :: names) (Tour.mk [] [])
  rw [hstart, ok_bind] at htour
  rw [load, htour, Tour.perform, loadOrder]
  simp only [bind_assoc, pure_bind, bind_pure]

end Options.Closure

end SchemaGen
