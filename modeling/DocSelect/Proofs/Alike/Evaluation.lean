import DocSelect.Proofs.Alike.Builtin
import DocSelect.Proofs.Alike.Step

/-!
# Evaluation respects pairings

By recursion on the expression: evaluations in alike sessions, on paired subjects, fail with the
same error or have paired results, and the sessions stay alike.
-/
namespace DocSelect

variable {settings : Settings}

def Settings.Respectful (settings : Settings) : Prop :=
  ∀ name f, settings.functions.find? name = some f → f.Respectful

theorem Settings.respectful_builtins (files : FileSystem) (environment : Environment)
    (limit : Nat) : Respectful ⟨Registry.builtins files, environment, limit⟩ :=
  fun _ _ => Registry.builtins_respectful files

namespace Expr

section
variable (hg : settings.Respectful)
include hg

set_option linter.unusedSectionVars false in
mutual

theorem respectful_denote : (e : Expr) → Step.Respectful settings e.denote
  | float _ | integer _ | string _ | boolean _ | null => by
    unfold denote
    exact fun _ _ _ _ => .new (.scalar _)
  | regex _ => by
    unfold denote
    exact fun _ _ _ _ => .throw _
  | property name => by
    unfold denote
    exact .property name
  | index key => by
    unfold denote
    exact .index (.lift key (respectful_denote key))
  | range start stop => by
    unfold denote
    exact .range (respectful_denoteOption start) (respectful_denoteOption stop)
  | var name => by
    unfold denote
    exact .var name
  | binary op left right => by
    have hl := Step.Respectful.lift left (respectful_denote left)
    have hr := Step.Respectful.lift right (respectful_denote right)
    unfold denote
    cases op
    case coalesce => exact .coalesce hl hr
    all_goals exact .binary _ _ hl hr
  | not operand => by
    unfold denote
    exact .not (.lift operand (respectful_denote operand))
  | assign target op value => by
    unfold denote
    exact .assign _ op (.lift target (respectful_denote target))
      (.lift value (respectful_denote value))
  | call function arguments => by
    unfold denote
    exact .call function (hg function) (respectful_denoteAll arguments)
  | object entries => by
    unfold denote
    exact .object (respectful_denoteEntries entries)
  | array items => by
    unfold denote
    exact .array (respectful_denoteAll items)
  | chain steps => by
    unfold denote
    exact .chain (respectful_denoteAll steps)
  | spread => by
    unfold denote
    exact .spread
  | group inner => by
    unfold denote
    exact .lift inner (respectful_denote inner)
  | conditional condition consequence alternative => by
    unfold denote
    exact .conditional (.lift condition (respectful_denote condition))
      (.lift consequence (respectful_denote consequence)) (respectful_denoteOption alternative)
  | branch results => by
    unfold denote
    exact .branch (respectful_denoteAll results)
  | map step => by
    unfold denote
    exact .map (.lift step (respectful_denote step))
  | each step => by
    unfold denote
    exact .each (.lift step (respectful_denote step))
  | filter predicate => by
    unfold denote
    exact .filter (.lift predicate (respectful_denote predicate))
  | search predicate => by
    unfold denote
    exact .search (.lift predicate (respectful_denote predicate))
  | sortBy key direction => by
    unfold denote
    exact .sortBy (.lift key (respectful_denote key)) direction
  | descend target => by
    unfold denote
    exact .descend target

theorem respectful_denoteAll :
    (es : List Expr) → ∀ f ∈ denoteAll es, Step.Respectful settings f
  | [], _, hf => by simp [denoteAll] at hf
  | e :: es, f, hf => by
    simp only [denoteAll, List.mem_cons] at hf
    rcases hf with rfl | hf
    · exact .lift e (respectful_denote e)
    · exact respectful_denoteAll es f hf

theorem respectful_denoteOption : (e : Option Expr) →
    ∀ f ∈ denoteOption e, Step.Respectful settings f
  | none, _, hf => by simp [denoteOption] at hf
  | some e, f, hf => by
    simp only [denoteOption, Option.mem_some_iff] at hf
    subst hf
    exact .lift e (respectful_denote e)

theorem respectful_denoteEntries : (es : List ObjectEntry) →
    ∀ e ∈ denoteEntries es, Step.Respectful.ofEntry settings e
  | [], _, he => by simp [denoteEntries] at he
  | .spread source :: es, e, he => by
    simp only [denoteEntries, denoteEntry, List.mem_cons] at he
    rcases he with rfl | he
    · exact respectful_denoteOption source
    · exact respectful_denoteEntries es e he
  | .pair key value :: es, e, he => by
    simp only [denoteEntries, denoteEntry, List.mem_cons] at he
    rcases he with rfl | he
    · exact ⟨.lift key (respectful_denote key), .lift value (respectful_denote value)⟩
    · exact respectful_denoteEntries es e he

end

theorem respectful_lift (e : Expr) : Step.Respectful settings (e.lift e.denote) :=
  .lift e (respectful_denote hg e)

end

end Expr

theorem evaluate_alike (hg : settings.Respectful) (e : Expr) {m : Pairing} {a b : Ref} (hab : m a b)
    {σ τ : Session} (h : σ.Alike m τ) :
    ∃ l, m ≤ l ∧ (evaluate settings e a σ).2.Alike l (evaluate settings e b τ).2 ∧
      Except.Alike l (evaluate settings e a σ).1 (evaluate settings e b τ).1 :=
  e.respectful_lift hg m a b hab m (le_refl m) σ τ h

end DocSelect
