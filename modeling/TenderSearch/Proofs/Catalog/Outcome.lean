import TenderSearch.Catalog.Selection
import TenderSearch.Proofs.Report.Yields

/-!
# What selecting and reading yields

A selection holds every known id once, and every unknown one raises a
condition. Reading an answer puts each selected entry either into the table or
into the conditions.
-/

namespace TenderSearch.Catalog

open Report

/-- A selection with an entry at its end, unless the entry is there already. -/
def Selection.with (selected : Selection) (entry : Entry) : Selection :=
  if entry ∈ selected then selected else selected ++ [entry]

def unknown? (id : String) : Option Condition :=
  match find? id with
  | some _ => none
  | none => some (.unknownAggregation id)

theorem yields_selectAfter (selected : Selection) (ids : List String) :
    Yields (selectAfter selected ids) ((ids.filterMap find?).foldl Selection.with selected)
      (ids.filterMap unknown?) := by
  -- selecting goes on with what it has, so the selection to begin with is any
  induction ids generalizing selected with
  | nil => exact Yields.pure selected
  | cons id rest ih =>
      unfold selectAfter
      split
      next entry hknown =>
        rw [List.filterMap_cons_some hknown,
          List.filterMap_cons_none (by simp [unknown?, hknown])]
        exact ih (selected.with entry)
      next hunknown =>
        have hissue : unknown? id = some (.unknownAggregation id) := by
          simp [unknown?, hunknown]
        rw [List.filterMap_cons_none hunknown, List.filterMap_cons_some hissue]
        exact (ih selected).raise_bind

namespace Selection

def summary? (context : Context) (answer : Json) (entry : Entry) : Option (String × Summary) :=
  match entry.read context answer with
  | .ok summary => some (entry.id, summary)
  | .error _ => none

/-- The condition of an entry whose part of the answer cannot be read. -/
def malformed? (context : Context) (answer : Json) (entry : Entry) : Option Condition :=
  match entry.read context answer with
  | .ok _ => none
  | .error path => some (.malformedAnswer entry.id path)

theorem yields_readAfter (context : Context) (answer : Json)
    (table : List (String × Summary)) (selection : Selection) :
    Yields (readAfter context answer table selection)
      (Table.extend table (selection.filterMap (summary? context answer)))
      (selection.filterMap (malformed? context answer)) := by
  -- likewise for the table of the summaries so far
  induction selection generalizing table with
  | nil => exact Yields.pure table
  | cons entry rest ih =>
      unfold readAfter
      split
      next summary hread =>
        have hentry : summary? context answer entry = some (entry.id, summary) := by
          simp [summary?, hread]
        rw [List.filterMap_cons_some hentry,
          List.filterMap_cons_none (by simp [malformed?, hread])]
        exact ih (Table.insert entry.id summary table)
      next path hread =>
        have hissue : malformed? context answer entry =
            some (.malformedAnswer entry.id path) := by
          simp [malformed?, hread]
        rw [List.filterMap_cons_none (by simp [summary?, hread]),
          List.filterMap_cons_some hissue]
        exact (ih table).raise_bind

end Selection

end TenderSearch.Catalog
