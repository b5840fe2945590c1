import Mathlib.Data.List.Basic

/-!
# Going over many results

A step gives one result or many. The next step goes over each of the many and puts what comes out
into one row, where a result that is many again leaves no trace of being one. So it makes no
difference whether steps run one after the other over all results, or together for each of them.
-/
namespace DocSelect

inductive Shape (α : Type) where
  | single (a : α)
  | many (as : List α)

namespace Shape

variable {α β γ : Type}

def elements : Shape α → List α
  | single a => [a]
  | many as => as

def gather (f : α → Option (Shape β)) : List α → Option (List β)
  | [] => some []
  | a :: as => do
    let s ← f a
    let rest ← gather f as
    return s.elements ++ rest

/-- Goes over the elements of a row; what is single stands for itself. -/
def each (f : α → Option (Shape β)) : Shape α → Option (Shape β)
  | single a => f a
  | many as => (gather f as).map many

def through : List (α → Option (Shape α)) → Shape α → Option (Shape α)
  | [], s => some s
  | f :: fs, s => (s.each f).bind (through fs)

-- ---------------------------------------------------------------------------
-- Rows
-- ---------------------------------------------------------------------------

theorem gather_single (as : List α) : gather (fun a => some (single a)) as = some as := by
  induction as with
  | nil => rfl
  | cons a as ih => simp [gather, ih, elements]

theorem gather_append (f : α → Option (Shape β)) (as bs : List α) :
    gather f (as ++ bs) = do return (← gather f as) ++ (← gather f bs) := by
  induction as with
  | nil => simp [gather]
  | cons a as ih =>
    rw [List.cons_append, gather, ih]
    simp only [gather, bind, pure, Option.bind_assoc, Option.bind_some, List.append_assoc]

theorem gather_congr {f g : α → Option (Shape β)} {as : List α} (h : ∀ a ∈ as, f a = g a) :
    gather f as = gather g as := by
  induction as with
  | nil => rfl
  | cons a as ih =>
    rw [gather, gather, h a List.mem_cons_self, ih fun b hb => h b (List.mem_cons_of_mem _ hb)]

theorem elements_each (f : α → Option (Shape β)) (s : Shape α) :
    (s.each f).map elements = gather f s.elements := by
  cases s with
  | single a => cases h : f a <;> simp [each, elements, gather, h]
  | many as => cases h : gather f as <;> simp [each, elements, h]

theorem gather_bind_each (f : α → Option (Shape β)) (g : β → Option (Shape γ))
    (as : List α) : gather (fun a => (f a).bind (each g)) as = (gather f as).bind (gather g) := by
  induction as with
  | nil => rfl
  | cons a as ih =>
    rw [gather, gather, ih]
    cases f a with
    | none => rfl
    | some s =>
      have hs := elements_each g s
      cases gather f as with
      | none => cases h : s.each g <;> simp [h]
      | some bs =>
        simp only [Option.bind_some, bind, pure, gather_append, ← hs]
        cases s.each g <;> rfl

-- ---------------------------------------------------------------------------
-- Steps
-- ---------------------------------------------------------------------------

theorem each_single (s : Shape α) : s.each (fun a => some (single a)) = some s := by
  cases s with
  | single a => rfl
  | many as => rw [each, gather_single, Option.map_some]

theorem each_congr {f g : α → Option (Shape β)} {s : Shape α}
    (h : ∀ a ∈ s.elements, f a = g a) : s.each f = s.each g := by
  cases s with
  | single a => exact h a List.mem_cons_self
  | many as => exact congrArg (Option.map many) (gather_congr h)

theorem each_bind_each (f : α → Option (Shape β)) (g : β → Option (Shape γ))
    (s : Shape α) : s.each (fun a => (f a).bind (each g)) = (s.each f).bind (each g) := by
  cases s with
  | single a => rfl
  | many as =>
    rw [each, each, gather_bind_each]
    cases gather f as <;> rfl

theorem each_through (fs : List (α → Option (Shape α))) (s : Shape α) :
    s.each (fun a => through fs (single a)) = through fs s := by
  induction fs generalizing s with
  | nil => exact each_single s
  | cons f fs ih =>
    have hfs : through fs = each fun a => through fs (single a) := funext fun t => (ih t).symm
    calc s.each (fun a => through (f :: fs) (single a))
        = s.each (fun a => (f a).bind (through fs)) := rfl
      _ = (s.each f).bind (through fs) := by rw [hfs, each_bind_each]
      _ = through (f :: fs) s := rfl

theorem through_append (fs gs : List (α → Option (Shape α))) (s : Shape α) :
    through (fs ++ gs) s = (through fs s).bind (through gs) := by
  induction fs generalizing s with
  | nil => rfl
  | cons f fs ih =>
    rw [List.cons_append, through, through, Option.bind_assoc]
    exact congrArg _ (funext ih)

end Shape

end DocSelect
