import Mathlib.Data.List.Basic
import Mathlib.Data.List.Induction
import TenderSearch.Proofs.Catalog.Outcome
import TenderSearch.Proofs.Table.Ascending

/-!
# Selecting from the catalog

A selection holds the known ids of a list in the order in which they first
occur there. So selecting its ids again changes nothing. The combined request
forgets the order: it only depends on which known ids occur.
-/

namespace TenderSearch.Catalog

open Report

/-- Some entry of the catalog has the id. -/
def IsKnown (id : String) : Prop :=
  ∃ entry : Entry, entry.id = id

theorem find?_eq_some_iff {id : String} {entry : Entry} :
    find? id = some entry ↔ entry.id = id := by
  constructor
  · intro hfound
    rw [find?] at hfound
    simpa using List.find?_some hfound
  · rintro rfl
    exact find?_id entry

theorem find?_eq_none_iff {id : String} : find? id = none ↔ ¬ IsKnown id := by
  rw [Option.eq_none_iff_forall_ne_some, IsKnown, not_exists]
  exact forall_congr' fun entry => not_congr find?_eq_some_iff

instance (id : String) : Decidable (IsKnown id) :=
  decidable_of_iff (find? id ≠ none) (by rw [ne_eq, find?_eq_none_iff, not_not])

/-- Unknown ids are reported once for each of their occurrences. -/
theorem filterMap_unknown? (ids : List String) :
    ids.filterMap unknown? =
      (ids.filter fun id => ¬ IsKnown id).map Condition.unknownAggregation := by
  induction ids with
  | nil => rfl
  | cons id rest ih =>
      cases hfound : find? id with
      | none =>
          have hunknown := find?_eq_none_iff.mp hfound
          rw [List.filterMap_cons_some (by rw [unknown?, hfound]),
            List.filter_cons_of_pos (by simpa using hunknown), List.map_cons, ih]
      | some entry =>
          have hknown : IsKnown id := ⟨entry, find?_eq_some_iff.mp hfound⟩
          rw [List.filterMap_cons_none (by rw [unknown?, hfound]),
            List.filter_cons_of_neg (by simpa using hknown), ih]

namespace Selection

/-! ## First occurrences -/

theorem mem_with {selection : Selection} {added entry : Entry} :
    entry ∈ selection.with added ↔ entry ∈ selection ∨ entry = added := by
  unfold Selection.with
  split
  next hold =>
    refine ⟨.inl, ?_⟩
    rintro (hmem | rfl)
    · exact hmem
    · exact hold
  next => rw [List.mem_append, List.mem_singleton]

/-- A selection holds the entries with the ids of a list, in the order in which
the ids first occur. -/
structure IsOf (ids : List String) (selection : Selection) : Prop where
  mem_iff : ∀ entry, entry ∈ selection ↔ entry.id ∈ ids
  order : selection.Pairwise fun first second => ids.idxOf first.id < ids.idxOf second.id

namespace IsOf

variable {ids : List String} {selection : Selection}

theorem nil : IsOf [] [] :=
  ⟨by simp, .nil⟩

/-- Places of first occurrences stay when a list goes on. -/
theorem order_append (hselection : IsOf ids selection) (later : List String) :
    selection.Pairwise fun first second =>
      (ids ++ later).idxOf first.id < (ids ++ later).idxOf second.id := by
  apply hselection.order.imp_of_mem
  intro first second hfirst hsecond hlt
  rwa [List.idxOf_append_of_mem ((hselection.mem_iff first).mp hfirst),
    List.idxOf_append_of_mem ((hselection.mem_iff second).mp hsecond)]

theorem append_known (hselection : IsOf ids selection) (added : Entry) :
    IsOf (ids ++ [added.id]) (selection.with added) where
  mem_iff entry := by
    have hid : entry.id = added.id ↔ entry = added := ⟨Entry.id_inj, congrArg Entry.id⟩
    rw [mem_with, hselection.mem_iff, List.mem_append, List.mem_singleton, hid]
  order := by
    unfold Selection.with
    split
    next => exact hselection.order_append [added.id]
    next hnew =>
      have hunseen : added.id ∉ ids := fun hmem => hnew ((hselection.mem_iff added).mpr hmem)
      apply List.pairwise_append.mpr
      refine ⟨hselection.order_append [added.id], List.pairwise_singleton _ _, ?_⟩
      intro entry hentry last hlast
      have hseen := (hselection.mem_iff entry).mp hentry
      rw [List.mem_singleton.mp hlast, List.idxOf_append_of_mem hseen,
        List.idxOf_append_of_notMem hunseen]
      exact Nat.lt_add_right _ (List.idxOf_lt_length_of_mem hseen)

theorem append_unknown (hselection : IsOf ids selection) {id : String} (hid : ¬ IsKnown id) :
    IsOf (ids ++ [id]) selection := by
  refine ⟨?_, hselection.order_append [id]⟩
  intro entry
  have hne : entry.id ≠ id := fun heq => hid ⟨entry, heq⟩
  rw [hselection.mem_iff, List.mem_append, List.mem_singleton, or_iff_left hne]

theorem nodup (hselection : IsOf ids selection) : selection.Nodup := by
  apply hselection.order.imp
  rintro first second hlt rfl
  exact Nat.lt_irrefl _ hlt

end IsOf

theorem isOf_foldl_with (ids : List String) :
    IsOf ids ((ids.filterMap find?).foldl Selection.with []) := by
  -- what is selected depends on the ids before, so the list grows at its end
  induction ids using List.reverseRecOn with
  | nil => exact .nil
  | append_singleton ids id ih =>
      rw [List.filterMap_append, List.foldl_append]
      cases hfound : find? id with
      | none =>
          rw [List.filterMap_cons_none hfound]
          exact ih.append_unknown (find?_eq_none_iff.mp hfound)
      | some entry =>
          rw [List.filterMap_cons_some hfound, ← find?_eq_some_iff.mp hfound]
          exact ih.append_known entry

/-! ## Selected ids -/

theorem foldl_with_eq_append {selected : Selection} {entries : List Entry}
    (hentries : (selected ++ entries).Nodup) :
    entries.foldl Selection.with selected = selected ++ entries := by
  induction entries generalizing selected with
  | nil => rw [List.foldl_nil, List.append_nil]
  | cons entry rest ih =>
      have hnew : entry ∉ selected := fun hmem =>
        (List.nodup_append.mp hentries).2.2 entry hmem entry List.mem_cons_self rfl
      have hwith : selected.with entry = selected ++ [entry] := if_neg hnew
      have hsplit : selected ++ entry :: rest = selected ++ [entry] ++ rest := by
        rw [List.append_assoc, List.singleton_append]
      rw [hsplit] at hentries ⊢
      rw [List.foldl_cons, hwith, ih hentries]

theorem filterMap_find?_ids (selection : Selection) :
    selection.ids.filterMap find? = selection := by
  rw [ids, List.filterMap_map]
  have hfound : find? ∘ Entry.id = some := funext find?_id
  rw [hfound, List.filterMap_some]

theorem isKnown_of_mem_ids {selection : Selection} {id : String} (hid : id ∈ selection.ids) :
    IsKnown id := by
  obtain ⟨entry, -, rfl⟩ := List.mem_map.mp hid
  exact ⟨entry, rfl⟩

/-- A selection is what its own ids select, without an unknown one. -/
theorem yields_select_ids {selection : Selection} (hselection : selection.Nodup) :
    Yields (select selection.ids) selection [] := by
  have hyields := yields_selectAfter [] selection.ids
  have hunknown : selection.ids.filterMap unknown? = [] := by
    rw [filterMap_unknown?, List.map_eq_nil_iff, List.filter_eq_nil_iff]
    intro id hid
    simpa using isKnown_of_mem_ids hid
  have hselected : selection.foldl Selection.with [] = [] ++ selection :=
    foldl_with_eq_append hselection
  rwa [hunknown, filterMap_find?_ids, hselected] at hyields

/-! ## Requests -/

def parts (selection : Selection) : Json.Fields :=
  selection.map fun entry => (entry.id, entry.template)

theorem nodup_keys {selection : Selection} (hselection : selection.Nodup) :
    (selection.parts.map Prod.fst).Nodup := by
  rw [parts, List.map_map]
  exact hselection.map fun _ _ => Entry.id_inj

/-- The request holds the template of every selected entry under its id. -/
theorem request_perm {selection : Selection} (hselection : selection.Nodup) :
    selection.request.Perm selection.parts :=
  Table.perm_ofList (nodup_keys hselection)

/-- Requests for the same entries are the same. -/
theorem request_eq {selection other : Selection} (hselection : selection.Nodup)
    (hother : other.Nodup) (hsame : ∀ entry, entry ∈ selection ↔ entry ∈ other) :
    selection.request = other.request := by
  have hentries : List.Perm selection other :=
    (List.perm_ext_iff_of_nodup hselection hother).mpr hsame
  exact Table.ofList_eq_of_perm (hentries.map _) (nodup_keys hselection)

end Selection

/-- Selecting keeps the known ids in the order in which they first occur, and
reports every occurrence of an unknown one. The request holds the templates of
the selected entries under their ids. Their ids select them again, and lists
with the same known ids have the same request. -/
theorem select_first_occurrences (ids : List String) :
    ∃ selection : Selection,
      (∀ earlier, runIn .lenient earlier (select ids) = (.ok selection,
        earlier ++ (ids.filter fun id => ¬ IsKnown id).map Condition.unknownAggregation)) ∧
      (∀ id, id ∈ selection.ids ↔ id ∈ ids ∧ IsKnown id) ∧
      (selection.ids.Pairwise fun first second => ids.idxOf first < ids.idxOf second) ∧
      (selection.request.Perm (selection.map fun entry => (entry.id, entry.template)) ∧
        Table.Ascending selection.request) ∧
      Yields (select selection.ids) selection [] ∧
      ∀ others other earlier later, (∀ id, IsKnown id → (id ∈ ids ↔ id ∈ others)) →
        runIn .lenient earlier (select others) = (.ok other, later) →
        other.request = selection.request := by
  have hselection := Selection.isOf_foldl_with ids
  have hyields := yields_selectAfter [] ids
  rw [filterMap_unknown?] at hyields
  generalize (ids.filterMap find?).foldl Selection.with [] = selection at hselection hyields
  refine ⟨selection, hyields.lenient, ?_, ?_,
    ⟨Selection.request_perm hselection.nodup, Table.ascending_ofList _⟩,
    Selection.yields_select_ids hselection.nodup, ?_⟩
  · intro id
    rw [Selection.ids, List.mem_map]
    constructor
    · rintro ⟨entry, hentry, rfl⟩
      exact ⟨(hselection.mem_iff entry).mp hentry, entry, rfl⟩
    · rintro ⟨hid, entry, rfl⟩
      exact ⟨entry, (hselection.mem_iff entry).mpr hid, rfl⟩
  · rw [Selection.ids, List.pairwise_map]
    exact hselection.order
  · intro others other earlier later hsame hrun
    have hothers := Selection.isOf_foldl_with others
    obtain ⟨rfl, -⟩ := (yields_selectAfter [] others).run_eq_ok (yields_selectAfter [] others) hrun
    apply Selection.request_eq hothers.nodup hselection.nodup
    intro entry
    rw [hothers.mem_iff, hselection.mem_iff, hsame entry.id ⟨entry, rfl⟩]

/-- Another order, a repeated id and an unknown one make no other request. -/
theorem select_first_occurrences_repeated :
    ∃ first second : Selection,
      runIn .lenient [] (select ["terms_countries", "terms_indicators"]) = (.ok first, []) ∧
      runIn .lenient [] (select ["terms_indicators", "", "terms_countries", "terms_indicators"]) =
        (.ok second, [.unknownAggregation ""]) ∧
      second.request = first.request := by
  obtain ⟨first, hfirst, -, -, -, -, hrequest⟩ :=
    select_first_occurrences ["terms_countries", "terms_indicators"]
  obtain ⟨second, hsecond, -⟩ :=
    select_first_occurrences ["terms_indicators", "", "terms_countries", "terms_indicators"]
  have hunknown : ¬ IsKnown "" := by decide
  have hsame (id : String) (hknown : IsKnown id) :
      id ∈ ["terms_countries", "terms_indicators"] ↔
        id ∈ ["terms_indicators", "", "terms_countries", "terms_indicators"] := by
    have hne : id ≠ "" := fun heq => hunknown (heq ▸ hknown)
    simp only [List.mem_cons, List.not_mem_nil, or_false, hne, false_or]
    grind
  exact ⟨first, second, hfirst [], hsecond [], hrequest _ second [] _ hsame (hsecond [])⟩

end TenderSearch.Catalog
