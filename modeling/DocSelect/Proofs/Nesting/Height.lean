import DocSelect.Expr.Basic

/-!
# Heights of expressions

How many expressions lie on the longest way into an expression. The entries of an object are not
expressions of their own.
-/
namespace DocSelect.Expr

mutual

def height : Expr → Nat
  | float _ | integer _ | string _ | boolean _ | null | regex _ | property _ | var _ | spread
  | descend _ => 1
  | index e | not e | group e | map e | each e | filter e | search e | sortBy e _ => height e + 1
  | binary _ a b | assign a _ b => max (height a) (height b) + 1
  | range a b => max (heightOption a) (heightOption b) + 1
  | call _ es | array es | chain es | branch es => heightAll es + 1
  | object entries => heightEntries entries + 1
  | conditional a b c => max (max (height a) (height b)) (heightOption c) + 1

def heightAll : List Expr → Nat
  | [] => 0
  | e :: es => max (height e) (heightAll es)

def heightOption : Option Expr → Nat
  | none => 0
  | some e => height e

def heightEntry : ObjectEntry → Nat
  | .spread source => heightOption source
  | .pair key value => max (height key) (height value)

def heightEntries : List ObjectEntry → Nat
  | [] => 0
  | e :: es => max (heightEntry e) (heightEntries es)

end

theorem heightAll_append (es fs : List Expr) :
    heightAll (es ++ fs) = max (heightAll es) (heightAll fs) := by
  induction es with
  | nil => simp [heightAll]
  | cons e es ih => rw [List.cons_append, heightAll, ih, heightAll, Nat.max_assoc]

theorem heightAll_le_of_sublist {es fs : List Expr} (h : es.Sublist fs) :
    heightAll es ≤ heightAll fs := by
  induction h with
  | slnil => exact Nat.le_refl _
  | cons f _ ih => exact Nat.le_trans ih (Nat.le_max_right _ _)
  | cons_cons e _ ih =>
    rw [heightAll, heightAll]
    omega

theorem heightAll_steps_le (e : Expr) : heightAll e.steps ≤ e.height := by
  cases e <;> simp [steps, heightAll, height]

theorem height_chained_le (es : List Expr) : (chained es).height ≤ heightAll es + 1 := by
  have hflat : heightAll (es.flatMap steps) ≤ heightAll es := by
    induction es with
    | nil => exact Nat.le_refl _
    | cons e es ih =>
      have hsteps := e.heightAll_steps_le
      rw [List.flatMap_cons, heightAll_append, heightAll]
      omega
  unfold chained
  split
  · rename_i e he
    rw [he, heightAll, heightAll] at hflat
    omega
  · rw [height]
    omega

theorem heightOption_dropLast?_le (e : Expr) : heightOption e.dropLast? ≤ e.height := by
  unfold dropLast?
  split
  · rename_i steps
    split
    · exact Nat.zero_le _
    · have hchained := height_chained_le steps.dropLast
      have hdrop := heightAll_le_of_sublist steps.dropLast_sublist
      rw [heightOption, height]
      omega
  · exact Nat.zero_le _

end DocSelect.Expr
