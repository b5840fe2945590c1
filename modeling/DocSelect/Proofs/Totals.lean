import DocSelect.Eval.Builtin
import DocSelect.Proofs.Execution
import DocSelect.Proofs.Integers
import Mathlib.Algebra.Order.BigOperators.Group.List
import Mathlib.Algebra.Ring.Int.Defs
import Mathlib.Data.List.Perm.Basic

/-!
# Totals of integers

A total is added up from the left, and every sum on the way has to fit into 64 bits. So the total
that is given is exact, but whether one is given may depend on the order of the numbers: some order
gives the total just if it fits, and all orders do just if the positive and the negative numbers on
their own have totals that fit.
-/
namespace DocSelect

variable {x y z : Int} {xs ys : List Int}

-- ---------------------------------------------------------------------------
-- Sums on the way
-- ---------------------------------------------------------------------------

def SumsFit (x : Int) (xs : List Int) : Prop := ∀ ys, ys <+: xs → fitsInt64 (x + ys.sum) = true

theorem sumsFit_nil : SumsFit x [] ↔ fitsInt64 x = true := by
  simp [SumsFit]

theorem sumsFit_cons : SumsFit x (y :: ys) ↔ fitsInt64 x = true ∧ SumsFit (x + y) ys := by
  constructor
  · intro h
    refine ⟨by simpa using h [] List.nil_prefix, fun zs hzs => ?_⟩
    simpa [add_assoc] using h (y :: zs) ((List.prefix_cons_inj y).2 hzs)
  · rintro ⟨hx, h⟩ zs hzs
    rcases List.prefix_cons_iff.1 hzs with rfl | ⟨rest, rfl, hrest⟩
    · simpa using hx
    · simpa [add_assoc] using h rest hrest

theorem SumsFit.total (h : SumsFit x xs) : fitsInt64 (x + xs.sum) = true := h xs List.prefix_rfl

theorem fitsInt64_between (hx : fitsInt64 x = true) (hz : fitsInt64 z = true) (hxy : x ≤ y)
    (hyz : y ≤ z) : fitsInt64 y = true := by
  rw [fitsInt64_iff] at hx hz ⊢
  omega

theorem sum_filter_cons (p : Int → Bool) (x : Int) (xs : List Int) :
    ((x :: xs).filter p).sum = (if p x then x else 0) + (xs.filter p).sum := by
  cases h : p x <;> simp [h]

/-- Some of the numbers add up to no less than all negative ones, and to no more than all positive
ones. -/
theorem sum_between (h : ys.Sublist xs) :
    (xs.filter (· < 0)).sum ≤ ys.sum ∧ ys.sum ≤ (xs.filter (0 < ·)).sum := by
  induction h with
  | slnil => simp
  | cons a _ ih | cons_cons a _ ih =>
    simp only [sum_filter_cons, decide_eq_true_eq, List.sum_cons]
    split <;> split <;> omega

theorem sumsFit_of_parts (hnegative : fitsInt64 (xs.filter (· < 0)).sum = true)
    (hpositive : fitsInt64 (xs.filter (0 < ·)).sum = true) : SumsFit 0 xs := by
  intro ys hys
  obtain ⟨hlow, hhigh⟩ := sum_between hys.sublist
  rw [zero_add]
  exact fitsInt64_between hnegative hpositive hlow hhigh

-- ---------------------------------------------------------------------------
-- Orders
-- ---------------------------------------------------------------------------

section
variable {α : Type} {w : α → Int} {l : List α}

/-- Where the total fits, there is a number that can be added next: one of the other sign than the
sum so far, if there is one. -/
theorem exists_next (hw : ∀ a ∈ l, fitsInt64 (w a) = true) (hl : l ≠ [])
    (hx : fitsInt64 x = true) (htotal : fitsInt64 (x + (l.map w).sum) = true) :
    ∃ a ∈ l, fitsInt64 (x + w a) = true := by
  have hsingle (a : α) (ha : a ∈ l) :=
    sum_between (List.singleton_sublist.2 (List.mem_map_of_mem (f := w) ha))
  obtain ⟨head, hhead⟩ := List.exists_mem_of_ne_nil l hl
  simp only [fitsInt64_iff, List.sum_singleton] at *
  rcases le_or_gt 0 x with hsign | hsign
  · by_cases hdown : ∃ a ∈ l, w a ≤ 0
    · obtain ⟨a, ha, hle⟩ := hdown
      have hfits := hw a ha
      exact ⟨a, ha, by omega⟩
    · simp only [not_exists, not_and, not_le] at hdown
      have hall : (l.map w).filter (0 < ·) = l.map w := by simpa using hdown
      have hle := hsingle head hhead
      have hlt := hdown head hhead
      rw [hall] at hle
      exact ⟨head, hhead, by omega⟩
  · by_cases hup : ∃ a ∈ l, 0 ≤ w a
    · obtain ⟨a, ha, hle⟩ := hup
      have hfits := hw a ha
      exact ⟨a, ha, by omega⟩
    · simp only [not_exists, not_and, not_le] at hup
      have hall : (l.map w).filter (· < 0) = l.map w := by simpa using hup
      have hle := hsingle head hhead
      have hlt := hup head hhead
      rw [hall] at hle
      exact ⟨head, hhead, by omega⟩

theorem exists_order (hw : ∀ a ∈ l, fitsInt64 (w a) = true) (hx : fitsInt64 x = true)
    (htotal : fitsInt64 (x + (l.map w).sum) = true) :
    ∃ l' : List α, l'.Perm l ∧ SumsFit x (l'.map w) := by
  induction hn : l.length generalizing l x with
  | zero =>
    obtain rfl := List.length_eq_zero_iff.1 hn
    exact ⟨[], .refl _, sumsFit_nil.2 hx⟩
  | succ n ih =>
    have hl : l ≠ [] := by
      rintro rfl
      cases hn
    obtain ⟨a, ha, hnext⟩ := exists_next hw hl hx htotal
    obtain ⟨before, after, rfl⟩ := List.append_of_mem ha
    have hmiddle : (before ++ a :: after).Perm (a :: (before ++ after)) := List.perm_middle
    have hsum := (hmiddle.map w).sum_eq
    rw [List.map_cons, List.sum_cons] at hsum
    rw [hsum, ← add_assoc] at htotal
    have hlength : (before ++ after).length = n := by
      have := hmiddle.length_eq
      simp only [List.length_cons] at this
      omega
    obtain ⟨l', hperm, hfit⟩ :=
      ih (fun b hb => hw b (hmiddle.mem_iff.2 (List.mem_cons_of_mem a hb))) hnext
      htotal hlength
    exact ⟨a :: l', (hperm.cons a).trans hmiddle.symm, sumsFit_cons.2 ⟨hx, hfit⟩⟩

theorem all_orders_iff : (∀ l' : List α, l'.Perm l → SumsFit 0 (l'.map w)) ↔
    fitsInt64 ((l.map w).filter (0 < ·)).sum = true ∧
    fitsInt64 ((l.map w).filter (· < 0)).sum = true := by
  have hfirst (p : Int → Bool) (h : ∀ l' : List α, l'.Perm l → SumsFit 0 (l'.map w)) :
      fitsInt64 ((l.map w).filter p).sum = true := by
    have hfit := h _ (List.filter_append_perm (fun a => p (w a)) l)
    rw [List.map_append] at hfit
    simpa [List.filter_map, Function.comp_def] using hfit _ (List.prefix_append _ _)
  refine ⟨fun h => ⟨hfirst _ h, hfirst _ h⟩, fun ⟨hpositive, hnegative⟩ l' hl' => ?_⟩
  refine sumsFit_of_parts ?_ ?_
  · rwa [((hl'.map w).filter _).sum_eq]
  · rwa [((hl'.map w).filter _).sum_eq]

end

-- ---------------------------------------------------------------------------
-- Functions
-- ---------------------------------------------------------------------------

namespace Builtin

variable {s : Store} {arguments : List Ref} {value : Ref → Int64}

theorem add_ints (a b : Int64) : Arithmetic.add.scalars (.int a) (.int b) =
    if fitsInt64 (a.toInt + b.toInt) then .ok (.int (Int64.ofInt (a.toInt + b.toInt)))
    else .error .integerOverflow := by
  by_cases h : fitsInt64 (a.toInt + b.toInt) = true <;>
    simp only [Arithmetic.scalars, Arithmetic.ints, Arithmetic.divides, Arithmetic.overflows,
      Arithmetic.exact, h] <;> rfl

/-- Adding up integers gives the exact total if all sums on the way fit, and overflows if one does
not. -/
theorem addAll_ints (a : Int64) (bs : List Int64) :
    (SumsFit a.toInt (bs.map Int64.toInt) ∧
      ∃ c : Int64, c.toInt = a.toInt + (bs.map Int64.toInt).sum ∧
      addAll (.int a) (bs.map .int) = .ok (.int c)) ∨
    ¬ SumsFit a.toInt (bs.map Int64.toInt) ∧
    addAll (.int a) (bs.map .int) = .error .integerOverflow := by
  induction bs generalizing a with
  | nil => exact .inl ⟨sumsFit_nil.2 (fitsInt64_toInt a), a, by simp, rfl⟩
  | cons b bs ih =>
    simp only [List.map_cons, addAll, add_ints, sumsFit_cons, List.sum_cons,
      fitsInt64_toInt, true_and]
    by_cases hfits : fitsInt64 (a.toInt + b.toInt) = true
    · have hsum := toInt_ofInt_of_fits hfits
      have hrest := ih (Int64.ofInt (a.toInt + b.toInt))
      rw [hsum, add_assoc] at hrest
      simp only [hfits, if_true]
      exact hrest
    · refine .inr ⟨fun h => hfits ?_, by simp only [hfits]; rfl⟩
      simpa using h [] List.nil_prefix

theorem exec_expectNumbers (name : String) (h : ∀ r ∈ arguments, (s.kind r).isNumeric = true) :
    (expectNumbers name arguments).exec s = (.ok (), s) := by
  induction arguments with
  | nil => rfl
  | cons r rest ih =>
    rw [expectNumbers, Action.exec_bind, Action.exec_read]
    simpa only [h r List.mem_cons_self, if_true]
      using ih fun q hq => h q (List.mem_cons_of_mem r hq)

theorem exec_total (name : String) (h : ∀ r ∈ arguments, s.data r = .int (value r)) :
    let xs := arguments.map fun r => (value r).toInt
    (SumsFit 0 xs ∧ ∃ c : Int64, c.toInt = xs.sum ∧
      (total name arguments).exec s = (.ok (s.new (.int c)).1, (s.new (.int c)).2)) ∨
    ¬ SumsFit 0 xs ∧ (total name arguments).exec s = (.error (.value .integerOverflow), s) := by
  have hnumbers : (expectNumbers name arguments).exec s = (.ok (), s) := by
    refine exec_expectNumbers name fun r hr => ?_
    rw [Store.kind, h r hr]
    rfl
  have hscalars : arguments.map (scalarOf s) = (arguments.map value).map .int := by
    rw [List.map_map]
    refine List.map_congr_left fun r hr => ?_
    rw [scalarOf, h r hr]
    rfl
  have hsum := addAll_ints 0 (arguments.map value)
  simp only [List.map_map, Function.comp_def, Int64.toInt_zero, zero_add] at hsum
  simp only [total, Action.exec_bind, hnumbers, Action.exec_ask, hscalars, List.map_map,
    Function.comp_def]
  rcases hsum with ⟨hfit, c, hc, hrun⟩ | ⟨hfit, hrun⟩
  · exact .inl ⟨hfit, c, hc, by rw [hrun]; rfl⟩
  · exact .inr ⟨hfit, by rw [hrun]; rfl⟩

end Builtin

namespace Function

variable {name : String} {f : Function} {s : Store} {arguments : List Ref} {value : Ref → Int64}

def Totals (f : Function) (s : Store) (subject : Ref) (arguments : List Ref) (c : Int64) : Prop :=
  (f.call subject arguments).exec s = (.ok (s.new (.int c)).1, (s.new (.int c)).2)

theorem call_total (files : FileSystem) (hname : name = "add" ∨ name = "sum")
    (hf : (Registry.builtins files).find? name = some f) (hne : arguments ≠ []) (subject : Ref) :
    f.call subject arguments = Builtin.total name arguments := by
  obtain ⟨r, rest, rfl⟩ := List.exists_cons_of_ne_nil hne
  rcases hname with rfl | rfl <;> cases hf <;> rfl

theorem Totals.unique {subject : Ref} {c c' : Int64} (h : f.Totals s subject arguments c)
    (h' : f.Totals s subject arguments c') : c = c' := by
  have hstores := congrArg Prod.snd (h.symm.trans h')
  have hdata := congrArg (·.data (s.new (.int c)).1) hstores
  simpa [Store.new, Store.data, Store.node, Store.add, Data.int] using hdata

theorem totals_or_overflows (files : FileSystem) (hname : name = "add" ∨ name = "sum")
    (hf : (Registry.builtins files).find? name = some f) (hne : arguments ≠ [])
    (h : ∀ r ∈ arguments, s.data r = .int (value r)) (subject : Ref) :
    let xs := arguments.map fun r => (value r).toInt
    (∀ c, f.Totals s subject arguments c ↔ SumsFit 0 xs ∧ c.toInt = xs.sum) ∧
    ((f.call subject arguments).exec s = (.error (.value .integerOverflow), s) ↔
      ¬ SumsFit 0 xs) := by
  intro xs
  have hcall := call_total files hname hf hne subject
  rcases Builtin.exec_total name h with ⟨hfit, c, hc, hrun⟩ | ⟨hfit, hrun⟩ <;>
    rw [← hcall] at hrun
  · refine ⟨fun c' => ⟨fun h' => ⟨hfit, ?_⟩, fun h' => ?_⟩,
      iff_of_false (by simp [hrun]) (not_not_intro hfit)⟩
    · rw [← hc, Totals.unique h' hrun]
    · rwa [Int64.toInt_inj.1 (h'.2.trans hc.symm)]
  · refine ⟨fun c => iff_of_false (fun h' => ?_) fun h' => hfit h'.1, iff_of_true hrun hfit⟩
    rw [Totals, hrun] at h'
    cases h'

end Function

/-- Adding up integers gives their exact total if every sum on the way, from the left, fits into 64
bits, and overflows if one does not. So two orders of the arguments never give different totals. One
of the orders gives the total just if it fits, and all of them do just if the totals of the positive
and of the negative arguments fit. -/
theorem totals_of_integers (files : FileSystem) {name : String} {f : Function}
    (hname : name = "add" ∨ name = "sum") (hf : (Registry.builtins files).find? name = some f)
    {s : Store} {arguments : List Ref} (hne : arguments ≠ []) {value : Ref → Int64}
    (h : ∀ r ∈ arguments, s.data r = .int (value r)) (subject : Ref) :
    let xs := arguments.map fun r => (value r).toInt
    (∀ c, f.Totals s subject arguments c ↔ SumsFit 0 xs ∧ c.toInt = xs.sum) ∧
    ((f.call subject arguments).exec s = (.error (.value .integerOverflow), s) ↔
      ¬ SumsFit 0 xs) ∧
    (∀ order, order.Perm arguments → ∀ c c', f.Totals s subject arguments c →
      f.Totals s subject order c' → c = c') ∧
    ((∃ order, order.Perm arguments ∧ ∃ c, f.Totals s subject order c) ↔
      fitsInt64 xs.sum = true) ∧
    ((∀ order, order.Perm arguments → ∃ c, f.Totals s subject order c) ↔
      fitsInt64 (xs.filter (0 < ·)).sum = true ∧ fitsInt64 (xs.filter (· < 0)).sum = true) := by
  intro xs
  have horder {order : List Ref} (hperm : order.Perm arguments) (c : Int64) :
      f.Totals s subject order c ↔
        SumsFit 0 (order.map fun r => (value r).toInt) ∧ c.toInt = xs.sum := by
    have hne' : order ≠ [] := fun hnil => hne (hnil ▸ hperm).nil_eq.symm
    rw [← (hperm.map fun r => (value r).toInt).sum_eq]
    exact (Function.totals_or_overflows files hname hf hne'
      (fun r hr => h r (hperm.mem_iff.1 hr)) subject).1 c
  have hgives {order : List Ref} (hperm : order.Perm arguments) :
      (∃ c, f.Totals s subject order c) ↔ SumsFit 0 (order.map fun r => (value r).toInt) := by
    simp only [horder hperm]
    refine ⟨fun ⟨_, hfit, _⟩ => hfit, fun hfit => ?_⟩
    have htotal := hfit.total
    rw [zero_add, (hperm.map fun r => (value r).toInt).sum_eq] at htotal
    exact ⟨Int64.ofInt xs.sum, hfit, toInt_ofInt_of_fits htotal⟩
  obtain ⟨htotals, hoverflows⟩ := Function.totals_or_overflows files hname hf hne h subject
  refine ⟨htotals, hoverflows, fun order hperm c c' hc hc' => ?_,
    ⟨?_, fun htotal => ?_⟩, ?_⟩
  · have hsum := ((htotals c).1 hc).2
    have hsum' := ((horder hperm c').1 hc').2
    exact Int64.toInt_inj.1 (hsum.trans hsum'.symm)
  · rintro ⟨order, hperm, c, hc⟩
    rw [← ((horder hperm c).1 hc).2]
    exact fitsInt64_toInt c
  · obtain ⟨order, hperm, hfit⟩ := exists_order (x := 0)
      (fun r _ => fitsInt64_toInt (value r)) (by decide) (by rwa [zero_add])
    exact ⟨order, hperm, (hgives hperm).2 hfit⟩
  · rw [← all_orders_iff]
    exact forall₂_congr fun order hperm => hgives hperm

/-- The sums on the way from three down to minus one and up to four fit. -/
theorem totals_of_integers_mixed :
    let s := (Session.start (.slice [.int 3, .int (-4), .int 5]) []).2.store
    ∃ f, (Registry.builtins FileSystem.bare).find? "add" = some f ∧
      f.Totals s ⟨3⟩ [⟨0⟩, ⟨1⟩, ⟨2⟩] 4 := by
  intro s
  have hints : ∀ r ∈ [(⟨0⟩ : Ref), ⟨1⟩, ⟨2⟩], s.data r =
      .int ([3, -4, 5].getD r.index 0) := by
    simp only [List.forall_mem_cons]
    exact ⟨rfl, rfl, rfl, by simp⟩
  obtain ⟨htotals, -⟩ :=
    totals_of_integers FileSystem.bare (.inl rfl) rfl (by simp) hints ⟨3⟩
  refine ⟨_, rfl, (htotals 4).2 ⟨sumsFit_of_parts ?_ ?_, ?_⟩⟩ <;> decide

/-- The greatest integer, one and minus one have a total that fits. It is not given in this order,
but it is if the last two are exchanged. -/
theorem total_depends_on_order :
    let s := (Session.start (.slice [.int Int64.maxValue, .int 1, .int (-1)]) []).2.store
    fitsInt64 (Int64.maxValue.toInt + 1 + -1) = true ∧
      ∃ f, (Registry.builtins FileSystem.bare).find? "add" = some f ∧
        (f.call ⟨3⟩ [⟨0⟩, ⟨1⟩, ⟨2⟩]).exec s = (.error (.value .integerOverflow), s) ∧
        f.Totals s ⟨3⟩ [⟨0⟩, ⟨2⟩, ⟨1⟩] Int64.maxValue := by
  intro s
  have hints : ∀ r ∈ [(⟨0⟩ : Ref), ⟨1⟩, ⟨2⟩], s.data r =
      .int ([Int64.maxValue, 1, -1].getD r.index 0) := by
    simp only [List.forall_mem_cons]
    exact ⟨rfl, rfl, rfl, by simp⟩
  have hints' : ∀ r ∈ [(⟨0⟩ : Ref), ⟨2⟩, ⟨1⟩], s.data r =
      .int ([Int64.maxValue, 1, -1].getD r.index 0) :=
    fun r hr => hints r (by simpa [or_comm] using hr)
  obtain ⟨-, hoverflows⟩ :=
    Function.totals_or_overflows FileSystem.bare (.inl rfl) rfl (by simp) hints ⟨3⟩
  obtain ⟨htotals, -⟩ :=
    Function.totals_or_overflows FileSystem.bare (.inl rfl) rfl (by simp) hints' ⟨3⟩
  refine ⟨by decide, _, rfl, hoverflows.2 fun hfit => ?_, (htotals _).2 ⟨?_, by decide⟩⟩
  · exact absurd (hfit [Int64.maxValue.toInt, 1] (by decide)) (by decide)
  · simp only [List.map_cons, List.map_nil, sumsFit_cons, sumsFit_nil]
    decide

end DocSelect
