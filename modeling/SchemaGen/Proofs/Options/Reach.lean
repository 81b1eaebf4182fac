import Mathlib.Data.Finset.Card
import SchemaGen.Proofs.Options.LoadOrder
import SchemaGen.Proofs.OrderedMap

/-!
# What a tour comes to

A tour over the imports visits the names that can be reached from where it starts, each of them
once, and takes one step for each (`tour_spec`). It depends on the files under these names alone,
and not on the bound on its depth (`visit_congr`).
-/

namespace SchemaGen.Options.Closure

open Descriptor (File)

/-- The names that imports lead to from the given ones. -/
inductive Reached (files : OrderedMap File) (roots : List String) : String → Prop
  | root {name : String} (mem : name ∈ roots) : Reached files roots name
  | imported {name dependency : String} {file : File} (importer : Reached files roots name)
      (found : files.get? name = some file) (mem : dependency ∈ file.dependencies) :
      Reached files roots dependency

def stepFor (files : OrderedMap File) (name : String) : Step :=
  match files.get? name with
  | some file => .add name file
  | none => if name = Descriptor.Standard.fileName then .standard else .absent name

namespace Tour

variable {files : OrderedMap File}

def visitAll (files : OrderedMap File) (depth : Nat) (names : List String) (tour : Tour) : Tour :=
  names.foldl (fun state name => state.visit files depth name) tour

theorem visit_of_visited {depth : Nat} {name : String} {tour : Tour} (h : name ∈ tour.visited) :
    tour.visit files depth name = tour := by
  cases depth with
  | zero => rfl
  | succ depth => rw [visit, if_pos (by simpa using h)]

theorem visit_of_new {depth : Nat} {name : String} {tour : Tour} (h : name ∉ tour.visited) :
    tour.visit files (depth + 1) name =
      (visitAll files depth ((files.get? name).elim [] File.dependencies) (tour.mark name)).record
        (stepFor files name) := by
  rw [visit, if_neg (by simpa using h), stepFor]
  cases files.get? name with
  | none => rfl
  | some file => rfl

-- ---------------------------------------------------------------------------
-- Depth
-- ---------------------------------------------------------------------------

/-- How many files have not been visited. -/
def pending (files : OrderedMap File) (tour : Tour) : Nat :=
  (files.keys.toFinset \ tour.visited.toFinset).card

theorem pending_le {tour after : Tour} (h : tour.visited ⊆ after.visited) :
    after.pending files ≤ tour.pending files := by
  refine Finset.card_le_card (Finset.sdiff_subset_sdiff (Finset.Subset.refl _) ?_)
  intro name hname
  exact List.mem_toFinset.mpr (h (List.mem_toFinset.mp hname))

theorem pending_mark_lt {tour : Tour} {name : String} {file : File}
    (hfile : files.get? name = some file) (hnew : name ∉ tour.visited) :
    (tour.mark name).pending files < tour.pending files := by
  have hkey : name ∈ files.keys := OrderedMap.mem_keys_iff.mpr ⟨file, hfile⟩
  refine Finset.card_lt_card (Finset.ssubset_iff_of_subset ?_ |>.mpr ⟨name, ?_, ?_⟩)
  · refine Finset.sdiff_subset_sdiff (Finset.Subset.refl _) ?_
    intro other hother
    simpa [mark] using Or.inr (List.mem_toFinset.mp hother)
  · simpa using ⟨hkey, hnew⟩
  · simp [mark]

theorem pending_start_lt (files : OrderedMap File) :
    (Tour.mk [] []).pending files < files.entries.length + 1 := by
  have hkeys : files.keys.toFinset.card ≤ files.keys.length := List.toFinset_card_le _
  have hlength : files.keys.length = files.entries.length := List.length_map _
  have hall : (Tour.mk [] []).pending files = files.keys.toFinset.card := by simp [pending]
  omega

-- ---------------------------------------------------------------------------
-- Progress
-- ---------------------------------------------------------------------------

/-- One tour goes on where another one has stopped: it visits further names, each once, and takes
the step of each. -/
structure Continues (files : OrderedMap File) (tour after : Tour) (fresh : List String) : Prop where
  visited : after.visited = tour.visited ++ fresh
  nodup : tour.visited.Nodup → after.visited.Nodup
  steps : ∃ taken, after.steps = tour.steps ++ taken ∧ taken.Perm (fresh.map (stepFor files))

namespace Continues

theorem refl (tour : Tour) : Continues files tour tour [] :=
  ⟨(List.append_nil _).symm, id, [], (List.append_nil _).symm, .refl _⟩

theorem trans {tour middle after : Tour} {fresh more : List String}
    (first : Continues files tour middle fresh) (second : Continues files middle after more) :
    Continues files tour after (fresh ++ more) := by
  obtain ⟨taken, htaken, hperm⟩ := first.steps
  obtain ⟨others, hothers, hperm'⟩ := second.steps
  refine ⟨?_, second.nodup ∘ first.nodup, taken ++ others, ?_, ?_⟩
  · rw [second.visited, first.visited, List.append_assoc]
  · rw [hothers, htaken, List.append_assoc]
  · rw [List.map_append]
    exact hperm.append hperm'

theorem subset {tour after : Tour} {fresh : List String} (h : Continues files tour after fresh) :
    tour.visited ⊆ after.visited := by
  rw [h.visited]
  exact List.subset_append_left _ _

theorem mem_iff {tour after : Tour} {fresh : List String} (h : Continues files tour after fresh)
    {name : String} : name ∈ after.visited ↔ name ∈ tour.visited ∨ name ∈ fresh := by
  rw [h.visited, List.mem_append]

end Continues

theorem continues_visitAll_of {depth : Nat}
    (hvisit : ∀ (name : String) (tour : Tour), ∃ fresh,
      Continues files tour (tour.visit files depth name) fresh) (names : List String)
    (tour : Tour) : ∃ fresh, Continues files tour (tour.visitAll files depth names) fresh := by
  induction names generalizing tour with
  | nil => exact ⟨[], .refl tour⟩
  | cons first more ih =>
    obtain ⟨fresh, hfirst⟩ := hvisit first tour
    obtain ⟨others, hmore⟩ := ih (tour.visit files depth first)
    exact ⟨fresh ++ others, hfirst.trans hmore⟩

theorem continues_visit (files : OrderedMap File) (depth : Nat) (name : String) (tour : Tour) :
    ∃ fresh, Continues files tour (tour.visit files depth name) fresh := by
  induction depth generalizing name tour with
  | zero => exact ⟨[], .refl tour⟩
  | succ depth ih =>
    by_cases hseen : name ∈ tour.visited
    · rw [visit_of_visited hseen]
      exact ⟨[], .refl tour⟩
    obtain ⟨fresh, hfresh⟩ := continues_visitAll_of ih
      ((files.get? name).elim [] File.dependencies) (tour.mark name)
    obtain ⟨taken, htaken, hperm⟩ := hfresh.steps
    rw [visit_of_new hseen]
    -- the name comes first among the names and last among the steps
    refine ⟨name :: fresh, ?_, ?_, taken ++ [stepFor files name], ?_, ?_⟩
    · rw [record, hfresh.visited, mark, List.append_assoc]
      rfl
    · intro hnodup
      refine hfresh.nodup ?_
      rw [mark, List.nodup_append]
      refine ⟨hnodup, List.nodup_singleton name, ?_⟩
      intro earlier hearlier last hlast he
      exact hseen (List.mem_singleton.mp hlast ▸ he ▸ hearlier)
    · rw [record, htaken, mark, List.append_assoc]
    · rw [List.map_cons]
      exact (List.perm_append_singleton _ _).trans (hperm.cons _)

theorem continues_visitAll (files : OrderedMap File) (depth : Nat) (names : List String)
    (tour : Tour) : ∃ fresh, Continues files tour (tour.visitAll files depth names) fresh :=
  continues_visitAll_of (continues_visit files depth) names tour

theorem subset_visit (files : OrderedMap File) (depth : Nat) (name : String) (tour : Tour) :
    tour.visited ⊆ (tour.visit files depth name).visited := by
  obtain ⟨fresh, hfresh⟩ := continues_visit files depth name tour
  exact hfresh.subset

theorem subset_visitAll (files : OrderedMap File) (depth : Nat) (names : List String)
    (tour : Tour) : tour.visited ⊆ (tour.visitAll files depth names).visited := by
  obtain ⟨fresh, hfresh⟩ := continues_visitAll files depth names tour
  exact hfresh.subset

-- ---------------------------------------------------------------------------
-- All that can be reached
-- ---------------------------------------------------------------------------

/-- All that the names new in a tour import has been visited. -/
def Exhausts (files : OrderedMap File) (tour after : Tour) : Prop :=
  ∀ name ∈ after.visited, name ∉ tour.visited → ∀ file, files.get? name = some file →
    file.dependencies ⊆ after.visited

theorem exhausts_trans {tour middle after : Tour} (hsubset : middle.visited ⊆ after.visited)
    (first : Exhausts files tour middle) (second : Exhausts files middle after) :
    Exhausts files tour after := by
  intro name hname hnew file hfile
  by_cases hmiddle : name ∈ middle.visited
  · exact fun dependency hmem => hsubset (first name hmiddle hnew file hfile hmem)
  · exact second name hname hmiddle file hfile

theorem exhausts_visitAll_of {depth : Nat}
    (hvisit : ∀ (name : String) (tour : Tour), tour.pending files < depth →
      name ∈ (tour.visit files depth name).visited ∧
        Exhausts files tour (tour.visit files depth name))
    (names : List String) {tour : Tour} (hdepth : tour.pending files < depth) :
    names ⊆ (tour.visitAll files depth names).visited ∧
      Exhausts files tour (tour.visitAll files depth names) := by
  induction names generalizing tour with
  | nil => exact ⟨List.nil_subset _, fun name hname hnew => absurd hname hnew⟩
  | cons first more ih =>
    obtain ⟨hfirst, hexhausts⟩ := hvisit first tour hdepth
    have hless : (tour.visit files depth first).pending files < depth :=
      Nat.lt_of_le_of_lt (pending_le (subset_visit files depth first tour)) hdepth
    obtain ⟨hmore, hexhausts'⟩ := ih hless
    have hsubset := subset_visitAll files depth more (tour.visit files depth first)
    refine ⟨?_, exhausts_trans hsubset hexhausts hexhausts'⟩
    exact List.cons_subset.mpr ⟨hsubset hfirst, hmore⟩

theorem exhausts_visit {depth : Nat} (name : String) (tour : Tour)
    (hdepth : tour.pending files < depth) :
    name ∈ (tour.visit files depth name).visited ∧
      Exhausts files tour (tour.visit files depth name) := by
  induction depth generalizing name tour with
  | zero => exact absurd hdepth (Nat.not_lt_zero _)
  | succ depth ih =>
    by_cases hseen : name ∈ tour.visited
    · rw [visit_of_visited hseen]
      exact ⟨hseen, fun other hother hnew => absurd hother hnew⟩
    rw [visit_of_new hseen]
    have hname : name ∈ (tour.mark name).visited := by simp [mark]
    have hinto := subset_visitAll files depth
      ((files.get? name).elim [] File.dependencies) (tour.mark name)
    refine ⟨hinto hname, ?_⟩
    cases hfile : files.get? name with
    | none =>
      -- a name without a file imports nothing
      intro other hother hnew file hother'
      rcases List.mem_append.mp hother with h | h
      · exact absurd h hnew
      · rw [List.mem_singleton.mp h, hfile] at hother'
        cases hother'
    | some file =>
      have hless : (tour.mark name).pending files < depth :=
        Nat.lt_of_lt_of_le (pending_mark_lt hfile hseen) (Nat.le_of_lt_succ hdepth)
      obtain ⟨hall, hexhausts⟩ := exhausts_visitAll_of ih file.dependencies hless
      intro other hother hnew found hfound
      by_cases hsame : other = name
      · subst hsame
        cases hfile.symm.trans hfound
        exact hall
      · refine hexhausts other hother ?_ found hfound
        simpa [mark] using ⟨hnew, hsame⟩

-- ---------------------------------------------------------------------------
-- Nothing else
-- ---------------------------------------------------------------------------

/-- A set of names that holds what the files under them import. -/
def Closed (files : OrderedMap File) (holds : String → Prop) : Prop :=
  ∀ name file, holds name → files.get? name = some file →
    ∀ dependency ∈ file.dependencies, holds dependency

theorem Closed.imports {holds : String → Prop} (h : Closed files holds) {name : String}
    (hname : holds name) :
    ∀ dependency ∈ (files.get? name).elim [] File.dependencies, holds dependency := by
  cases hfile : files.get? name with
  | none => exact fun dependency hmem => absurd hmem List.not_mem_nil
  | some file => exact h name file hname hfile

theorem closed_reached (files : OrderedMap File) (roots : List String) :
    Closed files (Reached files roots) :=
  fun _ _ importer found _ mem => .imported importer found mem

theorem visitAll_within_of {holds : String → Prop} {depth : Nat}
    (hvisit : ∀ name, holds name → ∀ tour : Tour, (∀ seen ∈ tour.visited, holds seen) →
      ∀ seen ∈ (tour.visit files depth name).visited, holds seen)
    {names : List String} (hnames : ∀ name ∈ names, holds name) {tour : Tour}
    (htour : ∀ seen ∈ tour.visited, holds seen) :
    ∀ seen ∈ (tour.visitAll files depth names).visited, holds seen := by
  induction names generalizing tour with
  | nil => exact htour
  | cons first more ih =>
    obtain ⟨hfirst, hmore⟩ := List.forall_mem_cons.mp hnames
    exact ih hmore (hvisit first hfirst tour htour)

theorem visit_within {holds : String → Prop} (hclosed : Closed files holds) (depth : Nat)
    (name : String) (hname : holds name) (tour : Tour) (htour : ∀ seen ∈ tour.visited, holds seen) :
    ∀ seen ∈ (tour.visit files depth name).visited, holds seen := by
  induction depth generalizing name tour with
  | zero => exact htour
  | succ depth ih =>
    by_cases hseen : name ∈ tour.visited
    · rw [visit_of_visited hseen]
      exact htour
    · rw [visit_of_new hseen]
      refine visitAll_within_of ih (hclosed.imports hname) ?_
      intro seen hmem
      rcases List.mem_append.mp hmem with h | h
      · exact htour seen h
      · exact List.mem_singleton.mp h ▸ hname

theorem visitAll_congr_of {others : OrderedMap File} {holds : String → Prop} {depth bound : Nat}
    (hvisit : ∀ name, holds name → ∀ tour : Tour, tour.pending files < depth →
      tour.pending others < bound → tour.visit files depth name = tour.visit others bound name)
    {names : List String} (hnames : ∀ name ∈ names, holds name) {tour : Tour}
    (hdepth : tour.pending files < depth) (hbound : tour.pending others < bound) :
    tour.visitAll files depth names = tour.visitAll others bound names := by
  induction names generalizing tour with
  | nil => rfl
  | cons first more ih =>
    obtain ⟨hfirst, hmore⟩ := List.forall_mem_cons.mp hnames
    have hsubset := subset_visit files depth first tour
    have hsame := hvisit first hfirst tour hdepth hbound
    show (tour.visit files depth first).visitAll files depth more =
      (tour.visit others bound first).visitAll others bound more
    rw [← hsame]
    exact ih hmore (Nat.lt_of_le_of_lt (pending_le hsubset) hdepth)
      (Nat.lt_of_le_of_lt (pending_le hsubset) hbound)

/-- A tour depends on the files of a closed set that it starts in, and not on the bounds on its
depth as long as they leave room for all files. -/
theorem visit_congr {others : OrderedMap File} {holds : String → Prop}
    (hclosed : Closed files holds) (hsame : ∀ name, holds name → files.get? name = others.get? name)
    {depth bound : Nat} (name : String) (hname : holds name) (tour : Tour)
    (hdepth : tour.pending files < depth) (hbound : tour.pending others < bound) :
    tour.visit files depth name = tour.visit others bound name := by
  induction depth generalizing name tour bound with
  | zero => exact absurd hdepth (Nat.not_lt_zero _)
  | succ depth ih =>
    cases bound with
    | zero => exact absurd hbound (Nat.not_lt_zero _)
    | succ bound =>
      by_cases hseen : name ∈ tour.visited
      · rw [visit_of_visited hseen, visit_of_visited hseen]
      rw [visit_of_new hseen, visit_of_new hseen, stepFor, stepFor, ← hsame name hname]
      cases hfile : files.get? name with
      | none => rfl
      | some file =>
        have hother : others.get? name = some file := (hsame name hname).symm.trans hfile
        have hless : (tour.mark name).pending files < depth :=
          Nat.lt_of_lt_of_le (pending_mark_lt hfile hseen) (Nat.le_of_lt_succ hdepth)
        have hless' : (tour.mark name).pending others < bound :=
          Nat.lt_of_lt_of_le (pending_mark_lt hother hseen) (Nat.le_of_lt_succ hbound)
        have hdependencies : ∀ dependency ∈ file.dependencies, holds dependency :=
          hclosed name file hname hfile
        have hall := visitAll_congr_of (fun other hholds state => ih other hholds state)
          hdependencies hless hless'
        simp only [Option.elim_some, hall]

end Tour

-- ---------------------------------------------------------------------------
-- Tours from the start
-- ---------------------------------------------------------------------------

def tourFrom (files : OrderedMap File) (names : List String) : Tour :=
  (Tour.mk [] []).visitAll files (files.entries.length + 1) names

theorem loadOrder_eq (files : OrderedMap File) (names : List String) :
    loadOrder files names = (tourFrom files (Descriptor.Standard.fileName :: names)).steps := rfl

/-- A tour visits what can be reached, once each, and takes the step of each name visited. -/
theorem tour_spec (files : OrderedMap File) (names : List String) :
    (tourFrom files names).visited.Nodup ∧
      (∀ name, name ∈ (tourFrom files names).visited ↔ Reached files names name) ∧
      (tourFrom files names).steps.Perm ((tourFrom files names).visited.map (stepFor files)) := by
  obtain ⟨fresh, hfresh⟩ :=
    Tour.continues_visitAll files (files.entries.length + 1) names (Tour.mk [] [])
  obtain ⟨taken, htaken, hperm⟩ := hfresh.steps
  obtain ⟨hroots, hexhausts⟩ :=
    Tour.exhausts_visitAll_of Tour.exhausts_visit names (Tour.pending_start_lt files)
  refine ⟨hfresh.nodup List.nodup_nil, fun name => ⟨?_, ?_⟩, ?_⟩
  · exact Tour.visitAll_within_of (Tour.visit_within (Tour.closed_reached files names) _)
      (fun root hroot => .root hroot) (fun seen hseen => absurd hseen List.not_mem_nil) name
  · intro hreached
    induction hreached with
    | root mem => exact hroots mem
    | imported _ found mem ih => exact hexhausts _ ih List.not_mem_nil _ found mem
  · rw [tourFrom, htaken, hfresh.visited]
    exact hperm

theorem tourFrom_congr {files others : OrderedMap File} {names : List String}
    (h : ∀ name, Reached files names name → files.get? name = others.get? name) :
    tourFrom files names = tourFrom others names :=
  Tour.visitAll_congr_of
    (fun name hname tour => Tour.visit_congr (Tour.closed_reached files names) h name hname tour)
    (fun _ hmem => .root hmem) (Tour.pending_start_lt files) (Tour.pending_start_lt others)

instance (files : OrderedMap File) (roots : List String) : DecidablePred (Reached files roots) :=
  fun name => decidable_of_iff _ ((tour_spec files roots).2.1 name)

end SchemaGen.Options.Closure
