import DocSelect.Proofs.Reachable
import DocSelect.Proofs.Updating.Overwriting

/-!
# Modifying

`modify` copies the value anew for each node that it writes. A write changes no other node that was
there, so each selected node keeps what the value held when it was written last. As long as no
written node is strictly inside the value, that is what the value held at the beginning; a node
inside it gets the value, and the copies that come after have the value in the value.
-/
namespace DocSelect

namespace Store

variable {s t u : Store} {r c q target value : Ref} {targets before after : List Ref}

/-- Writes a value into some nodes, one after the other. -/
def setAll (s : Store) (targets : List Ref) (value : Ref) : Store :=
  targets.foldl (fun s r => s.set r value) s

@[simp] theorem setAll_nil (s : Store) (value : Ref) : s.setAll [] value = s := rfl

@[simp] theorem setAll_cons (s : Store) (target value : Ref) (targets : List Ref) :
    s.setAll (target :: targets) value = (s.set target value).setAll targets value := rfl

theorem setAll_append (s : Store) (before after : List Ref) (value : Ref) :
    s.setAll (before ++ after) value = (s.setAll before value).setAll after value :=
  List.foldl_append

theorem size_le_setAll (s : Store) (targets : List Ref) (value : Ref) :
    s.size ≤ (s.setAll targets value).size := by
  induction targets generalizing s with
  | nil => exact Nat.le_refl _
  | cons target rest ih => exact Nat.le_trans (Quiet.set s target value).size_le (ih _)

theorem data_setAll (value : Ref) (hr : s.Known r) (hno : r ∉ targets) :
    (s.setAll targets value).data r = s.data r := by
  induction targets generalizing s with
  | nil => rfl
  | cons target rest ih =>
    simp only [List.mem_cons, not_or] at hno
    rw [setAll_cons, ih (Nat.lt_of_lt_of_le hr (Quiet.set s target value).size_le) hno.2,
      s.data_set_of_ne value hr hno.1]

/-- What is true of a node and of the parts of any such node is true of all that is in it. -/
theorem Comprises.closed (h : s.Comprises r c) (kept : Ref → Prop) (hr : kept r)
    (hpart : ∀ {a b : Ref}, kept a → s.Part b a → kept b) : kept c := by
  obtain ⟨path, hpath⟩ := h
  induction path generalizing r with
  | nil => exact Option.some.inj hpath ▸ hr
  | cons slot path ih =>
    obtain ⟨a, ha, hrest⟩ := Option.bind_eq_some_iff.1 hpath
    exact ih (hpart hr (Data.mem_children_iff.2 ⟨slot, ha⟩)) hrest

-- ---------------------------------------------------------------------------
-- The node that is written
-- ---------------------------------------------------------------------------

theorem content_set_setAll (htarget : s.Known target) (hrest : ∀ q ∈ after, s.Known q)
    (hno : target ∉ after) :
    ((s.set target value).setAll after value).content target = s.content value := by
  obtain ⟨roots, hg, -⟩ := s.grown_copyData value
  have hsize : s.size ≤ (s.set target value).size := (Quiet.set s target value).size_le
  have hcopied : (s.copyData value).2.size = (s.set target value).size := by simp [set, setData]
  refine (holds_copyData (fun r hr => ?_) ?_).content_eq
  · -- a copied node is new, so it is none of those that are written
    have hnew : r ∉ after := fun hin => absurd (hrest r hin) (Nat.not_lt.2 hr.1)
    rw [data_setAll value (show r.index < _ from hcopied ▸ hr.2) hnew]
    exact KeepsNew.setData htarget _ _ r hr
  · rw [data_setAll value (Nat.lt_of_lt_of_le htarget hsize) hno]
    exact data_setData_self _ _ (Nat.lt_of_lt_of_le htarget hg.size_le)

/-- Nothing that was there before is strictly inside a node that has just been written. -/
theorem eq_of_comprises_set (htarget : s.Known target)
    (hc : (s.set target value).Comprises target c) (hold : s.Known c) : c = target := by
  obtain ⟨roots, hg, hd⟩ := s.grown_copyData value
  have hkept : KeepsNew s (s.copyData value).2 (s.set target value) := .setData htarget _ _
  have hself : (s.set target value).data target = (s.copyData value).1 :=
    data_setData_self _ _ (Nat.lt_of_lt_of_le htarget hg.size_le)
  have hkeeps : c = target ∨ Fresh s (s.copyData value).2 c := by
    refine hc.closed (fun a => a = target ∨ Fresh s (s.copyData value).2 a) (.inl rfl)
      fun {a b} ha hb => ?_
    obtain ⟨slot, hslot⟩ := Data.mem_children_iff.1 hb
    rcases ha with rfl | ha
    · rw [hself] at hslot
      exact .inr (hg.root_fresh (hd.mem hslot))
    · rw [hkept a ha] at hslot
      exact .inr (hg.part_fresh ha hslot).1
  exact hkeeps.resolve_right fun hnew => absurd hold (Nat.not_lt.2 hnew.1)

-- ---------------------------------------------------------------------------
-- The value
-- ---------------------------------------------------------------------------

theorem comprises_set (hs : ∀ {a b : Ref}, s.Part b a → s.Known b) (hr : s.Known r)
    (hno : ¬ s.Comprises r target) (hc : (s.set target value).Comprises r c) :
    s.Comprises r c := by
  have hkept : s.Known c ∧ s.Comprises r c := by
    refine hc.closed (fun a => s.Known a ∧ s.Comprises r a)
      ⟨hr, .refl s r⟩ fun {a b} ha hb => ?_
    have hne : a ≠ target := fun heq => hno (heq ▸ ha.2)
    rw [Part, s.data_set_of_ne value ha.1 hne] at hb
    exact ⟨hs hb, ha.2.part hb⟩
  exact hkept.2

theorem Sound.content_set {w : Concern} (hs : s.Sound w) (hr : s.Known r)
    (hno : ¬ s.Comprises r target) : (s.set target value).content r = s.content r := by
  refine hs.content_eq (fun a => s.Known a ∧ s.Comprises r a) ⟨hr, .refl s r⟩ ?_ fun ha => ?_
  · exact fun ha hc => ⟨hs.part_known hc, ha.2.part hc⟩
  · exact s.data_set_of_ne value ha.1 fun heq => hno (heq ▸ ha.2)

theorem content_setAll_value (hs : s.Sound .soundness) (hvalue : s.Known value)
    (hsingle : ∀ q ∈ targets, s.Single q)
    (hout : ∀ q ∈ targets, s.Comprises value q → q = value) :
    (s.setAll targets value).content value = s.content value := by
  induction targets generalizing s with
  | nil => rfl
  | cons target rest ih =>
    have hknown : ∀ q ∈ rest, s.Known q := fun q hq => (hsingle q (List.mem_cons_of_mem _ hq)).1
    have hon := s.onward_set target value
    -- what is in the value after the first write, of the nodes that are still to be written
    have hfirst : (s.set target value).content value = s.content value ∧
        ∀ q ∈ rest, (s.set target value).Comprises value q → q = value := by
      by_cases hin : s.Comprises value target
      · have hself := hout target List.mem_cons_self hin
        subst hself
        refine ⟨(s.holds_set_self hvalue _).content_eq, fun q hq hc => ?_⟩
        exact eq_of_comprises_set hvalue hc (hknown q hq)
      · refine ⟨hs.content_set hvalue hin, fun q hq hc => ?_⟩
        exact hout q (List.mem_cons_of_mem _ hq)
          (comprises_set (fun hb => hs.part_known hb) hvalue hin hc)
    rw [setAll_cons, ih (hs.set (hsingle target List.mem_cons_self) value) (hon.known hvalue)
      (fun q hq => hon.single (hsingle q (List.mem_cons_of_mem _ hq))) hfirst.2]
    exact hfirst.1

end Store

-- ---------------------------------------------------------------------------
-- All nodes
-- ---------------------------------------------------------------------------

theorem modify_of_query {settings : Settings} {s t : Store} {document value : Ref}
    {selector : String} {selected : List Ref}
    (h : query settings selector document s = (.ok selected, t)) :
    modify settings document selector value s = (.ok selected.length, t.setAll selected value) := by
  rw [modify, h]
  rfl

/-- A selected node ends up with what the value held when it was written last, and that is what the
value held at the beginning unless a node strictly inside the value was written before. -/
theorem modify_sets (files : FileSystem) (environment : Environment) (limit : Nat) {s u : Store}
    (hs : s.Sound .soundness) {document value : Ref} (hdocument : s.Known document)
    (hvalue : s.Known value) {selector : String} {n : Nat}
    (h : modify ⟨Registry.builtins files, environment, limit⟩ document selector value s =
      (.ok n, u)) :
    ∃ selected t,
      query ⟨Registry.builtins files, environment, limit⟩ selector document s =
        (.ok selected, t) ∧ n = selected.length ∧
      (∀ before r after, selected = before ++ r :: after → r ∉ after →
        u.content r = (t.setAll before value).content value) ∧
      ((∀ q ∈ selected.dropLast, t.Comprises value q → q = value) →
        ∀ r ∈ selected, u.content r = t.content value) := by
  have hkeeping := Settings.keeping_builtins .soundness files environment limit
  rcases hq : query ⟨Registry.builtins files, environment, limit⟩ selector document s with
    ⟨err | selected, t⟩
  · simp only [modify, hq] at h
    cases h
  · rw [modify_of_query hq] at h
    cases h
    obtain ⟨ht, hon, hsingle⟩ := sound_query hkeeping hs hdocument hq
    have hsingle := hsingle selected rfl
    have hlast (before : List Ref) (r : Ref) (after : List Ref)
        (hsplit : selected = before ++ r :: after) (hno : r ∉ after) :
        (t.setAll selected value).content r = (t.setAll before value).content value := by
      have hknown {q : Ref} (hq : q ∈ selected) : (t.setAll before value).Known q :=
        Nat.lt_of_lt_of_le (hsingle q hq).1 (t.size_le_setAll before value)
      subst hsplit
      rw [Store.setAll_append, Store.setAll_cons]
      refine Store.content_set_setAll (hknown (by simp)) (fun q hq => hknown ?_) hno
      simp [hq]
    refine ⟨selected, t, rfl, rfl, hlast, fun hout r hr => ?_⟩
    obtain ⟨after, before, hsplit, hno⟩ := List.eq_append_cons_of_mem (List.mem_reverse.2 hr)
    have hsplit : selected = before.reverse ++ r :: after.reverse := by
      rw [← List.reverse_reverse selected, hsplit]
      simp
    rw [hlast _ r _ hsplit (by simpa using hno)]
    refine Store.content_setAll_value ht (hon.known hvalue)
      (fun q hq => hsingle q ?_) fun q hq => hout q ?_
    · rw [hsplit]
      exact List.mem_append_left _ hq
    · rw [hsplit, List.dropLast_append_cons]
      exact List.mem_append_left _ hq

/-- Each element of a document gets what the second one holds, the second one included. -/
theorem modify_sets_elements :
    let settings : Settings := ⟨Registry.builtins FileSystem.bare, fun _ => none, 10⟩
    let start := Session.start (.slice [.int 1, .slice [.int 2]]) []
    let store := start.2.store
    store.Sound .soundness ∧ store.Known start.1 ∧ store.Known ⟨2⟩ ∧
      ∃ u, modify settings start.1 "branch()" ⟨2⟩ store = (.ok 2, u) ∧
        ∀ r ∈ ([⟨0⟩, ⟨2⟩] : List Ref), Json.compact (u.content r) = "[2]".toList := by
  intro settings start store
  have hstart : start.2.Reachable settings := .start settings _ _
  have hsound : store.Sound .soundness :=
    (hstart.sound (Settings.keeping_builtins .soundness FileSystem.bare _ 10)).store
  have hdocument : store.Known start.1 := by
    show 3 < 4
    decide
  have hvalue : store.Known ⟨2⟩ := by
    show 2 < 4
    decide
  have hcount : (modify settings start.1 "branch()" ⟨2⟩ store).1.toOption = some 2 := by
    decide +kernel
  have hselected : (query settings "branch()" start.1 store).1.toOption =
      some [⟨0⟩, ⟨2⟩] := by
    decide +kernel
  -- the store in which the writing begins
  let t := (query settings "branch()" start.1 store).2
  have hslice : (t.data ⟨2⟩).children = [⟨1⟩] := by decide +kernel
  have hscalar : (t.data ⟨1⟩).children = [] := by decide +kernel
  have htext : Json.compact (t.content ⟨2⟩) = "[2]".toList := by decide +kernel
  refine ⟨hsound, hdocument, hvalue, ?_⟩
  rcases hm : modify settings start.1 "branch()" ⟨2⟩ store with ⟨_ | n, u⟩
  · rw [hm] at hcount
    cases hcount
  · obtain ⟨selected, t', hq, -, -, hsets⟩ := modify_sets _ _ _ hsound hdocument hvalue hm
    have ht : t = t' := congrArg Prod.snd hq
    rw [hm] at hcount
    rw [hq] at hselected
    cases hcount
    cases hselected
    refine ⟨u, rfl, fun r hr => ?_⟩
    rw [hsets (fun q hq hin => ?_) r hr, ← ht]
    · exact htext
    · have hkept : q = ⟨2⟩ ∨ q = ⟨1⟩ := by
        refine hin.closed (fun a => a = ⟨2⟩ ∨ a = ⟨1⟩) (.inl rfl) fun {a b} ha hb => ?_
        rw [← ht, Store.Part] at hb
        rcases ha with rfl | rfl
        · rw [hslice] at hb
          exact .inr (List.mem_singleton.1 hb)
        · rw [hscalar] at hb
          cases hb
      rw [List.mem_singleton.1 hq] at hkept ⊢
      rcases hkept with h | h <;> cases h

/-- The elements of a document are to get the document itself. The first one does, the second one
gets a copy of what the document has become by then. -/
theorem modify_copies_anew :
    let settings : Settings := ⟨Registry.builtins FileSystem.bare, fun _ => none, 10⟩
    let start := Session.start (.slice [.int 1, .slice [.int 2]]) []
    let (result, u) := modify settings start.1 "branch()" start.1 start.2.store
    let (selected, t) := query settings "branch()" start.1 start.2.store
    result.toOption = some 2 ∧ selected.toOption = some [⟨0⟩, ⟨2⟩] ∧
      Json.compact (t.content start.1) = "[1,[2]]".toList ∧
      Json.compact (u.content ⟨0⟩) = "[1,[2]]".toList ∧
      Json.compact (u.content ⟨2⟩) = "[[1,[2]],[2]]".toList := by
  decide +kernel

end DocSelect
