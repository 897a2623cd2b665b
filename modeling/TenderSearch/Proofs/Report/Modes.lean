import TenderSearch.Proofs.Catalog.Outcome
import TenderSearch.Proofs.Search.Outcome

/-!
# Strict and lenient work agree

Lenient work never fails, and strict work ends with the first condition that
lenient work records. This holds of everything that may raise conditions:
compiling clauses, assembling and restricting bodies, selecting from the
catalog, and reading answers.
-/

namespace TenderSearch

namespace Report

variable {α : Type}

/-- What holds of work that is run in the two modes on the same inputs. -/
structure ModesAgree (work : Report α) : Prop where
  lenient_ok : ∀ earlier, ∃ a, (runIn .lenient earlier work).1 = .ok a
  /-- Where lenient work records nothing, strict work has the same value. -/
  strict_ok : ∀ a, runIn .lenient [] work = (.ok a, []) →
    runIn .strict [] work = (.ok a, [])
  /-- Where lenient work records conditions, strict work fails with the first. -/
  strict_error : ∀ outcome first rest, runIn .lenient [] work = (outcome, first :: rest) →
    runIn .strict [] work = (.error first, [])
  strict_records_nothing : ∀ earlier, (runIn .strict earlier work).2 = earlier
  lenient_keeps : ∀ earlier, earlier <+: (runIn .lenient earlier work).2

theorem Yields.modesAgree {work : Report α} {a : α} {issues : List Condition}
    (hwork : Yields work a issues) : ModesAgree work where
  lenient_ok earlier := ⟨a, by rw [hwork.lenient]⟩
  strict_ok b hclean := by
    rw [hwork.lenient, List.nil_append, Prod.mk.injEq, Except.ok.injEq] at hclean
    obtain ⟨rfl, rfl⟩ := hclean
    exact hwork.strict []
  strict_error outcome first rest hissues := by
    rw [hwork.lenient, List.nil_append, Prod.mk.injEq] at hissues
    obtain ⟨-, rfl⟩ := hissues
    exact hwork.strict []
  strict_records_nothing earlier := by rw [hwork.strict]
  lenient_keeps earlier := by
    rw [hwork.lenient]
    exact List.prefix_append earlier issues

end Report

/-- The two modes agree on every kind of work that may raise conditions. -/
theorem strict_agrees_with_lenient :
    (∀ scopes clause, Report.ModesAgree (Clause.compile scopes clause)) ∧
    (∀ clause, Report.ModesAgree (Clause.compileAlone clause)) ∧
    (∀ setup search, Report.ModesAgree (Search.body setup search)) ∧
    (∀ setup country search, Report.ModesAgree (Search.bodyIn setup country search)) ∧
    (∀ countryField country body,
      Report.ModesAgree ((Search.restrict countryField country).on body)) ∧
    (∀ ids, Report.ModesAgree (Catalog.select ids)) ∧
    (∀ context answer selection,
      Report.ModesAgree (Catalog.Selection.read context answer selection)) := by
  -- each kind of work has an outcome, and that is all that is needed
  refine ⟨?_, ?_, ?_, ?_, ?_, ?_, ?_⟩
  · intro scopes clause
    exact (clause.yields_compile scopes).modesAgree
  · intro clause
    exact clause.yields_compileAlone.modesAgree
  · intro setup search
    exact (search.yields_body setup).modesAgree
  · intro setup country search
    obtain ⟨_, _, hwork⟩ := search.yields_bodyIn setup country
    exact hwork.modesAgree
  · intro countryField country body
    obtain ⟨_, _, hwork⟩ := Search.exists_leaves_restrict countryField country body
    exact hwork.on.modesAgree
  · intro ids
    exact (Catalog.yields_selectAfter [] ids).modesAgree
  · intro context answer selection
    exact (Catalog.Selection.yields_readAfter context answer [] selection).modesAgree

end TenderSearch
