import DocSelect.Proofs.Alike.Trim
import DocSelect.Proofs.Assignment
import DocSelect.Proofs.Quiet

/-!
# Overwritten nodes

Where only some nodes have got other data, everything that does not have one of them in it holds
what it held, and has the value that it had. If they are all below one node, then the content of a
node further up differs only in the part that this node is.
-/
namespace DocSelect

namespace Store

variable {s t : Store} {r c x y target root : Ref} {roots : List Ref} {live : Ref → Prop}
  {hops : List Hop} {path before : List Slot}

-- ---------------------------------------------------------------------------
-- What is in a node
-- ---------------------------------------------------------------------------

/-- The second node is the first one, or is somewhere below it. -/
def Comprises (s : Store) (r c : Ref) : Prop := ∃ path, s.follow? r path = some c

namespace Comprises

theorem refl (s : Store) (r : Ref) : s.Comprises r r := ⟨[], rfl⟩

theorem trans (h : s.Comprises r c) (k : s.Comprises c x) : s.Comprises r x := by
  obtain ⟨path, hpath⟩ := h
  obtain ⟨rest, hrest⟩ := k
  exact ⟨path ++ rest, by rw [follow?_append, hpath]; exact hrest⟩

theorem part (h : s.Comprises r c) (hx : s.Part x c) : s.Comprises r x := by
  obtain ⟨slot, hslot⟩ := Data.mem_children_iff.1 hx
  exact h.trans ⟨[slot], by rw [follow?, show s.part? c slot = some x from hslot]; rfl⟩

theorem of_reach (h : Relation.ReflTransGen s.Part c r) : s.Comprises r c := by
  induction h using Relation.ReflTransGen.head_induction_on with
  | refl => exact refl s r
  | head hpart _ ih => exact ih.part hpart

end Comprises

namespace Rooted

variable (h : s.Rooted roots live) (hroot : root ∈ roots)
include h hroot

theorem not_comprises (hbefore : s.follow? root before = some r) {slot : Slot}
    (hpath : s.follow? r (slot :: path) = some c) : ¬ s.Comprises c r := by
  rintro ⟨way, hway⟩
  have hround : s.follow? root (before ++ (slot :: path ++ way)) = some r := by
    rw [follow?_append, hbefore, Option.bind_some, follow?_append, hpath]
    exact hway
  have hlen := congrArg List.length (h.follow_inj hroot hroot hround hbefore).2
  simp at hlen

theorem slot_eq_of_comprises (hr : s.Comprises root r) {slot slot' : Slot}
    (hx : s.part? r slot = some x) (hy : s.part? r slot' = some y) (hxc : s.Comprises x c)
    (hyc : s.Comprises y c) : slot = slot' := by
  obtain ⟨before, hbefore⟩ := hr
  obtain ⟨way, hway⟩ := hxc
  obtain ⟨way', hway'⟩ := hyc
  have hto {slot : Slot} {a : Ref} {way : List Slot} (ha : s.part? r slot = some a)
      (hway : s.follow? a way = some c) : s.follow? root (before ++ slot :: way) = some c := by
    rw [follow?_append, hbefore, Option.bind_some, follow?, ha]
    exact hway
  have heq := (h.follow_inj hroot hroot (hto hx hway) (hto hy hway')).2
  exact (List.cons.inj (List.append_cancel_left heq)).1

theorem item_not_comprises (hr : s.Comprises root r) {items : List Ref}
    (hd : s.data r = .slice items) (hx : x ∈ items) (hy : y ∈ items) (hne : y ≠ x) :
    ¬ s.Comprises y x := by
  intro hin
  have hpart {i : Nat} {a : Ref} (hi : items[i]? = some a) : s.part? r (.position i) = some a := by
    rw [part?, hd]
    exact hi
  obtain ⟨i, hi⟩ := List.mem_iff_getElem?.1 hx
  obtain ⟨j, hj⟩ := List.mem_iff_getElem?.1 hy
  cases h.slot_eq_of_comprises hroot hr (hpart hj) (hpart hi) hin (.refl s x)
  exact hne (Option.some.inj (hj.symm.trans hi))

theorem not_mem_items (hr : s.Comprises root r) {items : List Ref} (hd : s.data r = .slice items) :
    r ∉ items := by
  intro hin
  obtain ⟨before, hbefore⟩ := hr
  obtain ⟨i, hi⟩ := List.mem_iff_getElem?.1 hin
  have hpath : s.follow? r [.position i] = some r := by
    rw [follow?, part?, hd, Data.part?, hi]
    rfl
  exact h.not_comprises hroot hbefore hpath (.refl s r)

end Rooted

namespace Forest

variable (h : s.Forest roots live) (hroot : root ∈ roots)
  (hdata : ∀ a, live a → ¬ s.Comprises target a → t.data a = s.data a)
include h hroot hdata

theorem follow?_frame (hbefore : s.follow? root before = some r)
    (hpath : s.follow? r path = some target) : t.follow? r path = some target := by
  induction path generalizing r before with
  | nil => exact hpath
  | cons slot path ih =>
    have hr := h.follow (h.root hroot) hbefore
    obtain ⟨c, hc, hrest⟩ := Option.bind_eq_some_iff.1 hpath
    have hnext : s.follow? root (before ++ [slot]) = some c := by
      rw [follow?_concat, hbefore]
      exact hc
    rw [follow?, part?, hdata r hr (h.not_comprises hroot hbefore hpath), ← part?, hc]
    exact ih hnext hrest

end Forest

end Store

-- ---------------------------------------------------------------------------
-- Sessions
-- ---------------------------------------------------------------------------

variable {settings : Settings} {σ ρ τ υ : Session} {document r x : Ref} {targets : List Ref}
  {e : Expr} {w : Concern}

/-- Settings under which nothing but the function for it marks nodes. -/
structure Settings.Calm (settings : Settings) : Prop where
  regular : settings.Regular
  quiet : Permits settings (fun σ τ => σ.store.Quiet τ.store) fun part =>
    !part.isCallOf "ignore"

structure Session.Overwrites (targets : List Ref) (σ τ : Session) : Prop where
  bindings : τ.bindings = σ.bindings
  size_le : σ.store.size ≤ τ.store.size
  data {r : Ref} : σ.store.Known r → r ∉ targets → τ.store.data r = σ.store.data r
  marks {r : Ref} : σ.store.Known r → τ.store.marks r = σ.store.marks r

namespace Session.Overwrites

theorem known (h : σ.Overwrites targets τ) (hr : σ.store.Known r) : τ.store.Known r :=
  Nat.lt_of_lt_of_le hr h.size_le

theorem isBranch (h : σ.Overwrites targets τ) (hplain : σ.store.Unmarked)
    (hr : σ.store.Known r) : τ.store.isBranch r = false := by
  rw [Store.isBranch, h.marks hr]
  exact hplain.isBranch r

/-- More nodes, and other marks of spreads, make no difference where there were no marks. -/
theorem later (h : σ.Overwrites targets τ) (hplain : σ.store.Unmarked) (hlater : τ.Later υ)
    (hquiet : τ.store.Quiet υ.store) : σ.Overwrites targets υ where
  bindings := hlater.bindings.trans h.bindings
  size_le := Nat.le_trans h.size_le hlater.size_le
  data hr hno := (hlater.node _ (h.known hr)).data.trans (h.data hr hno)
  marks {r} hr := by
    refine (hquiet.marks (h.known hr) ?_).trans (h.marks hr)
    rw [Store.isSpread, h.marks hr]
    exact hplain.isSpread r

theorem evaluate (hs : settings.Calm) (h : σ.Overwrites targets τ) (hplain : σ.store.Unmarked)
    (he : e.assignFree = true) (hi : e.ignoreFree = true) (subject : Ref) :
    σ.Overwrites targets (evaluate settings e subject τ).2 :=
  h.later hplain (evaluate_leads_of_assignFree Later.tolerant
    hs.regular.keeping.gentle he subject τ) (evaluate_leads_of_permits hs.quiet hi subject τ)

theorem set (h : σ.Overwrites targets τ) (hplain : σ.store.Unmarked) (target value : Ref) :
    σ.Overwrites (target :: targets) { τ with store := τ.store.set target value } where
  bindings := h.bindings
  size_le := Nat.le_trans h.size_le (Store.Quiet.set τ.store target value).size_le
  data hr hno := by
    rw [List.mem_cons, not_or] at hno
    rw [Store.data_set_of_ne _ _ (h.known hr) hno.1, h.data hr hno.2]
  marks {r} hr := by
    refine ((Store.Quiet.set τ.store target value).marks (h.known hr) ?_).trans (h.marks hr)
    rw [Store.isSpread, h.marks hr]
    exact hplain.isSpread r

theorem content_eq (h : σ.Overwrites targets τ) (hσ : σ.Sound w) (hr : σ.store.Known r)
    (hno : ∀ c ∈ targets, ¬ σ.store.Comprises r c) :
    τ.store.content r = σ.store.content r := by
  refine hσ.store.content_eq (fun a => σ.store.Known a ∧ σ.store.Comprises r a)
    ⟨hr, .refl _ r⟩ ?_ ?_
  · exact fun ha hc => ⟨hσ.store.part_known hc, ha.2.part hc⟩
  · exact fun ha => h.data ha.1 fun hin => hno _ hin ha.2

/-- Where no overwritten node is in the subject or in a variable, an expression has the value that
it had. -/
theorem value?_eq (hg : settings.Respectful) (h : σ.Overwrites targets τ) (hσ : σ.Sound w)
    (hx : σ.store.Known x)
    (hno : ∀ c ∈ targets, ∀ root ∈ x :: σ.bindings.values, ¬ σ.store.Comprises root c)
    (e : Expr) : τ.value? settings e x = σ.value? settings e x := by
  have hout {r : Ref} (hr : σ.Live x r) : r ∉ targets := fun hin =>
    let ⟨root, hroot, hreach⟩ := hr
    hno r hin root hroot (.of_reach hreach)
  have hknown {r : Ref} (hr : σ.Live x r) : σ.store.Known r := hr.known hσ hx
  have halike : σ.Alike (fun a b => a = b ∧ σ.Live x a) τ := by
    refine ⟨.of_kept (fun hr => ⟨hknown hr, h.known (hknown hr)⟩)
      (fun _ => hσ.store.grounded _)
      (fun hr hc => hr.part hc) (fun hr => h.data (hknown hr) (hout hr)) fun hr => ?_, ?_⟩
    · rw [h.marks (hknown hr)]
      exact ⟨rfl, rfl, rfl⟩
    · rw [h.bindings]
      exact List.forall₂_same.2 fun a ha => ⟨rfl, rfl, .of_value (List.mem_map_of_mem ha)⟩
  obtain ⟨l, -, hstores, hresults⟩ := evaluate_alike hg e ⟨rfl, .refl σ x⟩ halike
  unfold Session.value?
  rcases hleft : DocSelect.evaluate settings e x σ with ⟨_ | a, σ'⟩ <;>
    rcases hright : DocSelect.evaluate settings e x τ with ⟨_ | b, τ'⟩ <;>
    rw [hleft, hright] at hstores hresults <;> cases hresults
  rename_i hab
  exact congrArg some (hstores.store.content_eq hab).symm

end Session.Overwrites

end DocSelect
