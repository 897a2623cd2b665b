import TenderSearch.Proofs.Tree.KeptKeys
import TenderSearch.Proofs.Tree.QuietFragments

/-!
# Documents in compacted answers

The answer to an aggregation that asks for the first documents holds them as they are.
Compacting walks on into the documents: it leaves alone those that are flat, and takes
the layers out of the others, whatever their fields mean.
-/

namespace TenderSearch.Tree

open Json Aggregation

/-- The answer to an aggregation that asks for the first documents. -/
def topAnswer (documents : List Json) : Json :=
  .obj [("hits", .obj [("hits",
    .arr (documents.map fun document => .obj [("_source", document)]))])]

/-- The answers to such aggregations on fields, each with the documents that are found. -/
def topAnswers (found : List (String × List Json)) : Fields :=
  found.map fun (field, documents) => (keyOf field ++ "_hits", topAnswer documents)

/-- An object with one field that names no layer is compacted in the field only. -/
theorem compact_singleton {key : String} (hbuckets : key ≠ "buckets")
    (hkey : isSynthetic key = false) (value : Json) :
    compact (.obj [(key, value)]) = .obj [(key, compact value)] := by
  have hlayers : NoLayers [(key, compact value)] := by
    intro other inner hmem
    rw [(Prod.mk.inj (List.mem_singleton.mp hmem)).1]
    exact hkey
  rw [compact, compactFields, compactFields, if_neg hbuckets, splice_eq_self hlayers]

theorem compact_topAnswer (documents : List Json) :
    compact (topAnswer documents) = topAnswer (documents.map compact) := by
  have hhit : ∀ document, compact (.obj [("_source", document)]) =
      .obj [("_source", compact document)] := compact_singleton (by decide) (by decide)
  have hhits : ∀ value, compact (.obj [("hits", value)]) = .obj [("hits", compact value)] :=
    compact_singleton (by decide) (by decide)
  rw [topAnswer, topAnswer, hhits, hhits, compact, compactItems_eq_map]
  simp [hhit]

theorem hitsKey_ne_buckets (field : String) : keyOf field ++ "_hits" ≠ "buckets" := by
  intro heq
  have hmem : '_' ∈ (keyOf field ++ "_hits").toList := underscore_mem_append _ (by decide)
  rw [heq] at hmem
  exact absurd hmem (by decide)

theorem compact_topAnswers {found : List (String × List Json)}
    (hfields : ∀ part ∈ found, isSynthetic (keyOf part.1) = false) :
    compact (.obj (topAnswers found)) =
      .obj (topAnswers (found.map fun part => (part.1, part.2.map compact))) := by
  have hvalue : ∀ part : String × List Json,
      compactValue (keyOf part.1 ++ "_hits") (topAnswer part.2) =
        topAnswer (part.2.map compact) := by
    intro part
    rw [compactValue, if_neg (hitsKey_ne_buckets part.1), compact_topAnswer]
  have hmembers : compactFields (topAnswers found) =
      topAnswers (found.map fun part => (part.1, part.2.map compact)) := by
    rw [compactFields_eq_map, topAnswers, topAnswers, List.map_map, List.map_map]
    exact List.map_congr_left fun part _ => congrArg (Prod.mk _) (hvalue part)
  have hlayers : NoLayers (compactFields (topAnswers found)) := by
    intro key inner hmem
    rw [hmembers, topAnswers, List.map_map] at hmem
    obtain ⟨part, hpart, heq⟩ := List.mem_map.mp hmem
    rw [← (Prod.mk.inj heq).1, isSynthetic_append rfl (by decide)]
    exact hfields part hpart
  rw [compact, splice_eq_self hlayers, hmembers]

/-- The documents in an answer are compacted each by itself, and nothing else changes, if
no field's key looks like that of a layer. The documents that stay exactly as they were
are those in which no object outside of bucket lists holds a layer. -/
theorem compact_walks_into_documents {found : List (String × List Json)}
    (hfields : ∀ part ∈ found, isSynthetic (keyOf part.1) = false) :
    compact (.obj (topAnswers found)) =
      .obj (topAnswers (found.map fun part => (part.1, part.2.map compact))) ∧
    ∀ part ∈ found, ∀ document ∈ part.2, compact document = document ↔ IsFlat document := by
  refine ⟨compact_topAnswers hfields, ?_⟩
  intro part _ document _
  constructor
  · exact isFlat_of_compact_eq
  · exact compact_eq_self

/-- A document with buckets and another one that has an object under the key of a layer. -/
def titleDocuments : List Json :=
  [.obj [("buckets", .arr [.obj [("a_nested", .obj [])]]), ("x_nested", .null)],
    .obj [("lots_nested", .obj [("id", Json.ofNat 1)])]]

/-- What becomes of them. -/
def compactedDocuments : List Json :=
  [.obj [("buckets", .arr [.obj [("a_nested", .obj [])]]), ("x_nested", .null)],
    .obj [("id", Json.ofNat 1)]]

/-- The first document stays as it was, the second one does not. -/
theorem compact_walks_into_documents_titles :
    (∀ part ∈ [("title", titleDocuments)], isSynthetic (keyOf part.1) = false) ∧
    compact (.obj (topAnswers [("title", titleDocuments)])) =
      .obj (topAnswers [("title", compactedDocuments)]) := by
  have hfields : ∀ part ∈ [("title", titleDocuments)], isSynthetic (keyOf part.1) = false :=
    List.forall_mem_singleton.mpr rfl
  obtain ⟨hcompact, -⟩ := compact_walks_into_documents hfields
  exact ⟨hfields, hcompact.trans rfl⟩

/-- Documents are rewritten even where no field has the mark of wrapped layers. -/
theorem compact_rewrites_documents :
    ¬ ∀ found : List (String × List Json), (∀ part ∈ found, Unmarked (keyOf part.1)) →
      compact (.obj (topAnswers found)) = .obj (topAnswers found) := by
  intro hkept
  have hsame := hkept [("title", titleDocuments)] (List.forall_mem_singleton.mpr (by decide))
  have hrewritten : compact (.obj (topAnswers [("title", titleDocuments)])) =
      .obj (topAnswers [("title", compactedDocuments)]) := rfl
  rw [hrewritten] at hsame
  simp [topAnswers, topAnswer, titleDocuments, compactedDocuments] at hsame

end TenderSearch.Tree
