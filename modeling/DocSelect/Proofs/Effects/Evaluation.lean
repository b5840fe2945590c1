import DocSelect.Expr.Parts
import DocSelect.Proofs.Effects.Builtin
import DocSelect.Proofs.Effects.Step

/-!
# Effects of evaluation

By recursion on the expression: an evaluation leads to a session related to the one it began with,
for every relation that holds along what the parts of the expression do. A test on the parts says
which expressions are meant; a relation that only holds along some effects is one for expressions
without the others.
-/
namespace DocSelect

variable {settings : Settings} {R : Session → Session → Prop}

def Settings.Gentle (settings : Settings) : Prop :=
  ∀ name f, settings.functions.find? name = some f → f.Gentle

theorem Settings.gentle_builtins (files : FileSystem) (environment : Environment) (limit : Nat) :
    Gentle ⟨Registry.builtins files, environment, limit⟩ :=
  fun _ _ => Registry.builtins_gentle files

structure Permits (settings : Settings) (R : Session → Session → Prop)
    (test : Expr → Bool) : Prop extends Lenient R where
  spread : test .spread = true → Spreadable R
  assign {target : Expr} {op : Option BinaryOp} {value : Expr} :
    test (.assign target op value) = true → Writable R
  call {name : String} {arguments : List Expr} {f : Function} :
    test (.call name arguments) = true → settings.functions.find? name = some f → f.Leads R

theorem Tolerant.permits (hR : Tolerant R) (hg : settings.Gentle) {test : Expr → Bool}
    (hw : ∀ {target op value}, test (.assign target op value) = true → Writable R) :
    Permits settings R test where
  toLenient := hR.lenient
  spread _ := hR.spreadable
  assign := hw
  call _ hfind subject arguments σ := hR.touches σ (hg _ _ hfind subject arguments σ.store)

namespace Expr

section
variable {test : Expr → Bool} (hp : Permits settings R test)
include hp

set_option linter.unusedSectionVars false in
mutual

theorem leads_denote : (e : Expr) → e.all test = true → Step.Leads settings R e.denote
  | float _, _ | integer _, _ | string _, _ | boolean _, _ | null, _ => by
    unfold denote
    exact fun _ => .new hp.toLenient _
  | regex _, _ => by
    unfold denote
    exact fun _ => .throw hp.toLenient _
  | property name, _ => by
    unfold denote
    exact .property hp.toLenient name
  | index key, h => by
    simp only [all, Bool.and_eq_true] at h
    unfold denote
    exact .index hp.toLenient (.lift hp.toLenient key (leads_denote key h.2))
  | range start stop, h => by
    simp only [all, Bool.and_eq_true] at h
    unfold denote
    exact .range hp.toLenient (leads_denoteOption start h.1.2) (leads_denoteOption stop h.2)
  | var name, _ => by
    unfold denote
    exact .var hp.toLenient name
  | binary op left right, h => by
    simp only [all, Bool.and_eq_true] at h
    have hl := Step.Leads.lift hp.toLenient left (leads_denote left h.1.2)
    have hr := Step.Leads.lift hp.toLenient right (leads_denote right h.2)
    unfold denote
    cases op
    case coalesce => exact .coalesce hp.toLenient hl hr
    all_goals exact .binary hp.toLenient _ _ hl hr
  | not operand, h => by
    simp only [all, Bool.and_eq_true] at h
    unfold denote
    exact .not hp.toLenient (.lift hp.toLenient operand (leads_denote operand h.2))
  | assign target op value, h => by
    simp only [all, Bool.and_eq_true] at h
    unfold denote
    exact .assign hp.toLenient (hp.assign h.1.1) _ op
      (.lift hp.toLenient target (leads_denote target h.1.2))
      (.lift hp.toLenient value (leads_denote value h.2))
  | call function arguments, h => by
    simp only [all, Bool.and_eq_true] at h
    unfold denote
    exact .call hp.toLenient function (fun _ => hp.call h.1) (leads_denoteAll arguments h.2)
  | object entries, h => by
    simp only [all, Bool.and_eq_true] at h
    unfold denote
    exact .object hp.toLenient (leads_denoteEntries entries h.2)
  | array items, h => by
    simp only [all, Bool.and_eq_true] at h
    unfold denote
    exact .array hp.toLenient (leads_denoteAll items h.2)
  | chain steps, h => by
    simp only [all, Bool.and_eq_true] at h
    unfold denote
    exact .chain hp.toLenient (leads_denoteAll steps h.2)
  | spread, h => by
    unfold denote
    exact .spread hp.toLenient (hp.spread h)
  | group inner, h => by
    simp only [all, Bool.and_eq_true] at h
    unfold denote
    exact .lift hp.toLenient inner (leads_denote inner h.2)
  | conditional condition consequence alternative, h => by
    simp only [all, Bool.and_eq_true] at h
    unfold denote
    exact .conditional hp.toLenient (.lift hp.toLenient condition (leads_denote condition h.1.1.2))
      (.lift hp.toLenient consequence (leads_denote consequence h.1.2))
      (leads_denoteOption alternative h.2)
  | branch results, h => by
    simp only [all, Bool.and_eq_true] at h
    unfold denote
    exact .branch hp.toLenient (leads_denoteAll results h.2)
  | map step, h => by
    simp only [all, Bool.and_eq_true] at h
    unfold denote
    exact .map hp.toLenient (.lift hp.toLenient step (leads_denote step h.2))
  | each step, h => by
    simp only [all, Bool.and_eq_true] at h
    unfold denote
    exact .each hp.toLenient (.lift hp.toLenient step (leads_denote step h.2))
  | filter predicate, h => by
    simp only [all, Bool.and_eq_true] at h
    unfold denote
    exact .filter hp.toLenient (.lift hp.toLenient predicate (leads_denote predicate h.2))
  | search predicate, h => by
    simp only [all, Bool.and_eq_true] at h
    unfold denote
    exact .search hp.toLenient (.lift hp.toLenient predicate (leads_denote predicate h.2))
  | sortBy key direction, h => by
    simp only [all, Bool.and_eq_true] at h
    unfold denote
    exact .sortBy hp.toLenient (.lift hp.toLenient key (leads_denote key h.2)) direction
  | descend target, _ => by
    unfold denote
    exact .descend hp.toLenient target

theorem leads_denoteAll : (es : List Expr) → allList test es = true →
    ∀ f ∈ denoteAll es, Step.Leads settings R f
  | [], _, _, hf => by simp [denoteAll] at hf
  | e :: es, h, f, hf => by
    simp only [allList, Bool.and_eq_true] at h
    simp only [denoteAll, List.mem_cons] at hf
    rcases hf with rfl | hf
    · exact .lift hp.toLenient e (leads_denote e h.1)
    · exact leads_denoteAll es h.2 f hf

theorem leads_denoteOption : (e : Option Expr) → allOption test e = true →
    ∀ f ∈ denoteOption e, Step.Leads settings R f
  | none, _, _, hf => by simp [denoteOption] at hf
  | some e, h, f, hf => by
    simp only [denoteOption, Option.mem_some_iff] at hf
    subst hf
    exact .lift hp.toLenient e (leads_denote e h)

theorem leads_denoteEntries : (es : List ObjectEntry) → allEntries test es = true →
    ∀ e ∈ denoteEntries es, Step.Leads.ofEntry settings R e
  | [], _, _, he => by simp [denoteEntries] at he
  | .spread source :: es, h, e, he => by
    simp only [allEntries, allEntry, Bool.and_eq_true] at h
    simp only [denoteEntries, denoteEntry, List.mem_cons] at he
    rcases he with rfl | he
    · exact leads_denoteOption source h.1
    · exact leads_denoteEntries es h.2 e he
  | .pair key value :: es, h, e, he => by
    simp only [allEntries, allEntry, Bool.and_eq_true] at h
    simp only [denoteEntries, denoteEntry, List.mem_cons] at he
    rcases he with rfl | he
    · exact ⟨.lift hp.toLenient key (leads_denote key h.1.1),
        .lift hp.toLenient value (leads_denote value h.1.2)⟩
    · exact leads_denoteEntries es h.2 e he

end

theorem leads_lift (e : Expr) (h : e.all test = true) : Step.Leads settings R (e.lift e.denote) :=
  .lift hp.toLenient e (leads_denote hp e h)

end

end Expr

/-- An evaluation leads to a session related by each relation that holds along what its parts do. -/
theorem evaluate_leads_of_permits {test : Expr → Bool} (hp : Permits settings R test) {e : Expr}
    (he : e.all test = true) (subject : Ref) (σ : Session) :
    R σ (evaluate settings e subject σ).2 :=
  e.leads_lift hp he subject σ

/-- Every evaluation leads to a session related by each relation that holds along its effects. -/
theorem evaluate_leads (hW : TolerantOfWriting R) (hg : settings.Gentle) (e : Expr) (subject : Ref)
    (σ : Session) : R σ (evaluate settings e subject σ).2 := by
  have hall : e.all (fun _ => true) = true := e.all_of_forall fun _ => rfl
  exact evaluate_leads_of_permits (hW.toTolerant.permits hg fun _ => hW.writable) hall subject σ

/-- A relation that holds along effects that leave data alone is one for expressions without
assignments. -/
theorem Tolerant.permits_assignFree (hR : Tolerant R) (hg : settings.Gentle) :
    Permits settings R fun part => !part.isAssign :=
  hR.permits hg fun h => absurd h Bool.false_ne_true

theorem evaluate_leads_of_assignFree (hR : Tolerant R) (hg : settings.Gentle) {e : Expr}
    (he : e.assignFree = true) (subject : Ref) (σ : Session) :
    R σ (evaluate settings e subject σ).2 :=
  evaluate_leads_of_permits (hR.permits_assignFree hg) he subject σ

end DocSelect
