import DocSelect.Proofs.Effects.Evaluation
import DocSelect.Proofs.Soundness.Search

/-!
# Evaluation keeps sessions sound

By recursion on the expression. Where the concern is that evaluation comes to an end, the predicates
of searches have to be without assignments; nothing is asked of other expressions.
-/
namespace DocSelect

variable {w : Concern} {settings : Settings}

/-- What an expression must not be for the concern: a search whose predicate writes might never
end. -/
def Concern.admits : Concern → Expr → Bool
  | .ending, .search predicate => predicate.assignFree
  | _, _ => true

/-- Settings whose functions keep stores sound, and leave alone what nodes hold. -/
structure Settings.Keeping (w : Concern) (settings : Settings) : Prop where
  keeps (name : String) (f : Function) : settings.functions.find? name = some f → f.Keeps w
  gentle : settings.Gentle

theorem Settings.keeping_builtins (w : Concern) (files : FileSystem) (environment : Environment)
    (limit : Nat) : Keeping w ⟨Registry.builtins files, environment, limit⟩ :=
  ⟨fun _ _ => Registry.builtins_keep files, Settings.gentle_builtins files environment limit⟩

namespace Expr

section
variable (hs : settings.Keeping w)
include hs

set_option linter.unusedSectionVars false in
mutual

theorem runs_denote : (e : Expr) → e.all w.admits = true → Step.Runs w settings e.denote
  | float _, _ | integer _, _ | string _, _ | boolean _, _ | null, _ => by
    unfold denote
    exact fun _ _ hσ _ => .scalar hσ _
  | regex _, _ => by
    unfold denote
    exact fun _ _ hσ _ => .throw hσ fun _ => rfl
  | property name, _ => by
    unfold denote
    exact .property name
  | index key, h => by
    simp only [all, Bool.and_eq_true] at h
    unfold denote
    exact .index (.lift key (runs_denote key h.2))
  | range start stop, h => by
    simp only [all, Bool.and_eq_true] at h
    unfold denote
    exact .range (runs_denoteOption start h.1.2) (runs_denoteOption stop h.2)
  | var name, _ => by
    unfold denote
    exact .var name
  | binary op left right, h => by
    simp only [all, Bool.and_eq_true] at h
    have hl := Step.Runs.lift left (runs_denote left h.1.2)
    have hr := Step.Runs.lift right (runs_denote right h.2)
    unfold denote
    cases op
    case coalesce => exact .coalesce hl hr
    all_goals exact .binary _ _ hl hr
  | not operand, h => by
    simp only [all, Bool.and_eq_true] at h
    unfold denote
    exact .not (.lift operand (runs_denote operand h.2))
  | assign target op value, h => by
    simp only [all, Bool.and_eq_true] at h
    unfold denote
    exact .assign _ op (.lift target (runs_denote target h.1.2))
      (.lift value (runs_denote value h.2))
  | call function arguments, h => by
    simp only [all, Bool.and_eq_true] at h
    unfold denote
    exact .call function (hs.keeps function) (runs_denoteAll arguments h.2)
  | object entries, h => by
    simp only [all, Bool.and_eq_true] at h
    unfold denote
    exact .object (runs_denoteEntries entries h.2)
  | array items, h => by
    simp only [all, Bool.and_eq_true] at h
    unfold denote
    exact .array (runs_denoteAll items h.2)
  | chain steps, h => by
    simp only [all, Bool.and_eq_true] at h
    unfold denote
    exact .chain (runs_denoteAll steps h.2)
  | spread, _ => by
    unfold denote
    exact .spread
  | group inner, h => by
    simp only [all, Bool.and_eq_true] at h
    unfold denote
    exact .lift inner (runs_denote inner h.2)
  | conditional condition consequence alternative, h => by
    simp only [all, Bool.and_eq_true] at h
    unfold denote
    exact .conditional (.lift condition (runs_denote condition h.1.1.2))
      (.lift consequence (runs_denote consequence h.1.2)) (runs_denoteOption alternative h.2)
  | branch results, h => by
    simp only [all, Bool.and_eq_true] at h
    unfold denote
    exact .branch (runs_denoteAll results h.2)
  | map step, h => by
    simp only [all, Bool.and_eq_true] at h
    unfold denote
    exact .map (.lift step (runs_denote step h.2))
  | each step, h => by
    simp only [all, Bool.and_eq_true] at h
    unfold denote
    exact .each (.lift step (runs_denote step h.2))
  | filter predicate, h => by
    simp only [all, Bool.and_eq_true] at h
    unfold denote
    exact .filter (.lift predicate (runs_denote predicate h.2))
  | search predicate, h => by
    simp only [all, Bool.and_eq_true] at h
    unfold denote
    refine .search (.lift predicate (runs_denote predicate h.2)) fun hw limit => ?_
    subst hw
    have hg : (settings.upTo limit).Gentle := hs.gentle
    exact predicate.leads_lift (Session.Later.tolerant.permits_assignFree hg) h.1
  | sortBy key direction, h => by
    simp only [all, Bool.and_eq_true] at h
    unfold denote
    exact .sortBy (.lift key (runs_denote key h.2)) direction
  | descend target, _ => by
    unfold denote
    exact .descend target

theorem runs_denoteAll : (es : List Expr) → allList w.admits es = true →
    ∀ f ∈ denoteAll es, Step.Runs w settings f
  | [], _, _, hf => by simp [denoteAll] at hf
  | e :: es, h, f, hf => by
    simp only [allList, Bool.and_eq_true] at h
    simp only [denoteAll, List.mem_cons] at hf
    rcases hf with rfl | hf
    · exact .lift e (runs_denote e h.1)
    · exact runs_denoteAll es h.2 f hf

theorem runs_denoteOption : (e : Option Expr) → allOption w.admits e = true →
    ∀ f ∈ denoteOption e, Step.Runs w settings f
  | none, _, _, hf => by simp [denoteOption] at hf
  | some e, h, f, hf => by
    simp only [denoteOption, Option.mem_some_iff] at hf
    subst hf
    exact .lift e (runs_denote e h)

theorem runs_denoteEntries : (es : List ObjectEntry) → allEntries w.admits es = true →
    ∀ e ∈ denoteEntries es, Step.Runs.ofEntry w settings e
  | [], _, _, he => by simp [denoteEntries] at he
  | .spread source :: es, h, e, he => by
    simp only [allEntries, allEntry, Bool.and_eq_true] at h
    simp only [denoteEntries, denoteEntry, List.mem_cons] at he
    rcases he with rfl | he
    · exact runs_denoteOption source h.1
    · exact runs_denoteEntries es h.2 e he
  | .pair key value :: es, h, e, he => by
    simp only [allEntries, allEntry, Bool.and_eq_true] at h
    simp only [denoteEntries, denoteEntry, List.mem_cons] at he
    rcases he with rfl | he
    · exact ⟨.lift key (runs_denote key h.1.1), .lift value (runs_denote value h.1.2)⟩
    · exact runs_denoteEntries es h.2 e he

end

theorem runs_lift (e : Expr) (h : e.all w.admits = true) : Step.Runs w settings (e.lift e.denote) :=
  .lift e (runs_denote hs e h)

end

end Expr

end DocSelect
