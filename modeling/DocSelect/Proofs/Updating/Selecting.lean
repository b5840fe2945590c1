import DocSelect.Proofs.Reachable
import DocSelect.Proofs.Sorting.Stable
import DocSelect.Proofs.Updating.Overwriting

/-!
# Selecting elements of a slice

A filter, a sort and a range give a new slice of elements that are nodes of the document. Which ones
these are follows from the values of the expressions in the session as it was, since nothing that
they look at has changed when it is their turn.
-/
namespace DocSelect

inductive Selection where
  | all
  | filter (predicate : Expr)
  | sortBy (key : Expr) (direction : SortDirection)
  | range (start stop : Option Expr)

variable {settings : Settings} {σ ρ τ : Session} {document xs q r x y : Ref}
  {items picked done : List Ref} {e : Expr} {s : Selection}

def Session.holds (settings : Settings) (σ : Session) (predicate : Expr) (r : Ref) : Bool :=
  match σ.value? settings predicate r with
  | some (.scalar (.bool b)) => b
  | _ => false

namespace Selection

def steps : Selection → List Expr
  | all => []
  | filter predicate => [.filter predicate]
  | sortBy key direction => [.sortBy key direction]
  | range start stop => [.range start stop]

/-- No expression in the selection assigns or marks. -/
def Free (s : Selection) : Prop := ∀ e ∈ s.steps, e.assignFree = true ∧ e.ignoreFree = true

def Picks (settings : Settings) (σ : Session) (xs : Ref) (items picked : List Ref) :
    Selection → Prop
  | all => picked = items
  | filter predicate => picked = items.filter (σ.holds settings predicate)
  | sortBy _ _ => picked.Perm items
  | range start stop => ∃ i j,
    start.map (σ.value? settings · xs) = i.map (fun n => some (.int n)) ∧
    stop.map (σ.value? settings · xs) = j.map (fun n => some (.int n)) ∧
    range? i j items = .ok picked

end Selection

structure Session.Lists (σ : Session) (document xs : Ref) (items : List Ref) : Prop where
  plain : σ.Plain [document]
  sound : σ.Sound .soundness
  within : σ.store.Comprises document xs
  data : σ.store.data xs = .slice items

namespace Session.Lists

variable (h : σ.Lists document xs items)
include h

omit h in
theorem document_mem : document ∈ [document] ++ σ.bindings.values := List.mem_cons_self

theorem known : σ.store.Known xs :=
  let ⟨_, hpath⟩ := h.within
  h.plain.forest.follow (h.plain.forest.root document_mem) hpath

theorem item_part (hx : x ∈ items) : σ.store.Part x xs := by
  rw [Store.Part, h.data]
  exact hx

theorem item_known (hx : x ∈ items) : σ.store.Known x :=
  h.sound.store.part_known (h.item_part hx)

theorem item_not_comprises (hx : x ∈ items) (hy : y ∈ items) (hne : y ≠ x) :
    ¬ σ.store.Comprises y x :=
  h.plain.forest.item_not_comprises document_mem h.within h.data hx hy hne

theorem value_not_comprises (hx : x ∈ items) {root : Ref} (hroot : root ∈ σ.bindings.values) :
    ¬ σ.store.Comprises root x := by
  rintro ⟨way, hway⟩
  obtain ⟨path, hpath⟩ := h.within.part (h.item_part hx)
  have heq := (h.plain.forest.follow_inj document_mem (List.mem_append_right _ hroot) hpath hway).1
  exact (List.nodup_cons.1 h.plain.forest.nodup).1 (heq ▸ hroot)

theorem nodup : items.Nodup := by
  rw [List.nodup_iff_injective_get]
  intro i j hij
  have hpart (i : Fin items.length) : σ.store.part? xs (.position i) = some (items.get i) := by
    rw [Store.part?, h.data]
    exact List.getElem?_eq_getElem i.isLt
  have hslot := (h.plain.forest.unique h.known h.known (hpart i) (hij ▸ hpart j)).2
  exact Fin.ext (Slot.position.inj hslot)

theorem value?_eq (hs : settings.Calm) (hρ : σ.Overwrites done ρ)
    (hdone : ∀ y ∈ done, y ∈ items) (hx : x ∈ items) (hno : x ∉ done) (e : Expr) :
    ρ.value? settings e x = σ.value? settings e x := by
  refine hρ.value?_eq hs.regular.respectful h.sound (h.item_known hx) (fun y hy root hroot => ?_) e
  rcases List.mem_cons.1 hroot with rfl | hroot
  · exact h.item_not_comprises (hdone y hy) hx fun heq => hno (heq ▸ hy)
  · exact h.value_not_comprises (hdone y hy) hroot

end Session.Lists

-- ---------------------------------------------------------------------------
-- Steps
-- ---------------------------------------------------------------------------

theorem exec_ask_eq_ok_iff {α : Type} {f : Store → Except ValueError α} {a : α} :
    (Eval.ask f).exec settings σ = (.ok a, τ) ↔ f σ.store = .ok a ∧ σ = τ := by
  rw [Eval.exec_ask]
  cases f σ.store <;> simp [Except.mapError]

theorem Store.bool?_eq_ok_iff {s : Store} {b : Bool} :
    s.bool? r = .ok b ↔ s.data r = .scalar (.bool b) := by
  unfold bool? unexpected
  split
  · rename_i hd
    simp [hd, eq_comm]
  · rename_i hno
    exact ⟨nofun, fun hd => absurd hd (hno _)⟩

theorem Store.int?_eq_ok_iff {s : Store} {n : Int64} :
    s.int? r = .ok n ↔ s.data r = .scalar (.int n) := by
  unfold int? unexpected
  split
  · rename_i hd
    simp [hd, eq_comm]
  · rename_i hno
    exact ⟨nofun, fun hd => absurd hd (hno _)⟩

theorem exec_chain_single (e : Expr) :
    (Step.chain (Expr.denoteAll [e]) r).exec settings σ = evaluate settings e r σ := by
  rw [Expr.denoteAll, Expr.denoteAll, Step.chain, Eval.exec_bind, evaluate_eq_exec, ← Expr.step]
  rcases (e.step r).exec settings σ with ⟨_ | _, _⟩ <;> rfl

theorem kept_eq_filter (hs : settings.Calm) (h : σ.Lists document xs items)
    (he : e.assignFree = true) (hi : e.ignoreFree = true) (hρ : σ.Overwrites [] ρ)
    {todo : List Ref} (htodo : ∀ x ∈ todo, x ∈ items)
    (hrun : (Step.kept e.step todo).exec settings ρ = (.ok picked, τ)) :
    picked = todo.filter (σ.holds settings e) := by
  induction todo generalizing ρ picked with
  | nil =>
    cases hrun
    rfl
  | cons x rest ih =>
    rw [Step.kept] at hrun
    obtain ⟨q, υ, hvalue, hrun⟩ := Eval.exec_bind_eq_ok_iff.1 hrun
    obtain ⟨b, _, hask, hrun⟩ := Eval.exec_bind_eq_ok_iff.1 hrun
    obtain ⟨hb, rfl⟩ := exec_ask_eq_ok_iff.1 hask
    have hvalue : evaluate settings e x ρ = (.ok q, υ) := hvalue
    have hυ := hρ.evaluate hs h.plain.unmarked he hi x
    rw [hvalue] at hυ
    have hholds : σ.holds settings e x = b := by
      have hx := h.value?_eq hs hρ (fun _ hy => absurd hy List.not_mem_nil)
        (htodo x List.mem_cons_self) List.not_mem_nil e
      rw [Session.holds, ← hx, Session.value?, hvalue]
      simp only [(Store.Holds.scalar (Store.bool?_eq_ok_iff.1 hb)).content_eq]
    have hrest := fun y hy => htodo y (List.mem_cons_of_mem x hy)
    cases b with
    | true =>
      obtain ⟨others, ω, hothers, hrun⟩ := Eval.exec_bind_eq_ok_iff.1 hrun
      cases hrun
      rw [List.filter_cons_of_pos hholds, ih hυ hrest hothers]
    | false =>
      rw [List.filter_cons_of_neg (by rw [hholds]; exact Bool.false_ne_true)]
      exact ih hυ hrest hrun

theorem length_sortKeys {f : Step} {keys : List Ref}
    (h : (Step.sortKeys f items).exec settings σ = (.ok keys, τ)) :
    keys.length = items.length := by
  induction items generalizing σ keys with
  | nil =>
    cases h
    rfl
  | cons x rest ih =>
    rw [Step.sortKeys] at h
    obtain ⟨key, υ, -, h⟩ := Eval.exec_bind_eq_ok_iff.1 h
    obtain ⟨others, ψ, hothers, h⟩ := Eval.exec_bind_eq_ok_iff.1 h
    cases h
    rw [List.length_cons, ih hothers, List.length_cons]

theorem bound_eq (hs : settings.Calm) (h : σ.Lists document xs items) {bound : Option Expr}
    (he : Expr.allOption (fun part => !part.isAssign) bound = true)
    (hi : Expr.allOption (fun part => !part.isCallOf "ignore") bound = true)
    (hρ : σ.Overwrites [] ρ) {i : Option Int64}
    (hrun : (Step.bound (Expr.denoteOption bound) xs).exec settings ρ = (.ok i, τ)) :
    bound.map (σ.value? settings · xs) = i.map (fun n => some (.int n)) ∧
    σ.Overwrites [] τ := by
  cases bound with
  | none =>
    cases hrun
    exact ⟨rfl, hρ⟩
  | some e =>
    rw [Expr.denoteOption, Step.bound] at hrun
    obtain ⟨q, υ, hvalue, hrun⟩ := Eval.exec_bind_eq_ok_iff.1 hrun
    obtain ⟨n, _, hask, hrun⟩ := Eval.exec_bind_eq_ok_iff.1 hrun
    obtain ⟨hn, rfl⟩ := exec_ask_eq_ok_iff.1 hask
    have hvalue : evaluate settings e xs ρ = (.ok q, υ) := hvalue
    have hυ := hρ.evaluate hs h.plain.unmarked he hi xs
    rw [hvalue] at hυ
    rw [Eval.exec_pure] at hrun
    cases hrun
    have hxs :=
      hρ.value?_eq hs.regular.respectful h.sound h.known (fun _ hy => absurd hy List.not_mem_nil) e
    rw [Option.map_some, Option.map_some, ← hxs, Session.value?, hvalue]
    exact ⟨congrArg (some <| some ·)
      (Store.Holds.scalar (Store.int?_eq_ok_iff.1 hn)).content_eq, hυ⟩

-- ---------------------------------------------------------------------------
-- Selections
-- ---------------------------------------------------------------------------

theorem nodup_between {α : Type} {xs : List α} (h : xs.Nodup) (start stop : Nat) :
    (between start stop xs).Nodup := by
  unfold between
  split
  · exact (h.sublist (List.drop_sublist start xs)).sublist (List.take_sublist _ _)
  · exact List.nodup_reverse.2
      ((h.sublist (List.drop_sublist stop xs)).sublist (List.take_sublist _ _))

theorem nodup_range? {α : Type} {start stop : Option Int64} {xs ys : List α}
    (h : range? start stop xs = .ok ys) (hxs : xs.Nodup) : ys.Nodup := by
  obtain ⟨first, last, rfl⟩ := Store.exists_between_of_range? h
  exact nodup_between hxs first last

theorem Selection.Picks.mem (h : s.Picks settings σ xs items picked) (hx : x ∈ picked) :
    x ∈ items := by
  cases s with
  | all => exact h ▸ hx
  | filter p =>
    obtain rfl := h
    exact List.mem_of_mem_filter hx
  | sortBy k direction => exact (List.Perm.mem_iff h).1 hx
  | range a b =>
    obtain ⟨i, j, -, -, hrange⟩ := h
    exact Store.mem_of_mem_range? hrange hx

theorem Selection.Picks.nodup (h : s.Picks settings σ xs items picked) (hitems : items.Nodup) :
    picked.Nodup := by
  cases s with
  | all => exact h ▸ hitems
  | filter p =>
    obtain rfl := h
    exact hitems.filter _
  | sortBy k direction => exact (List.Perm.nodup_iff h).2 hitems
  | range a b =>
    obtain ⟨i, j, -, -, hrange⟩ := h
    exact nodup_range? hrange hitems

theorem exec_new_ok {d : Data} (h : (Eval.new d).exec settings ρ = (.ok q, τ)) :
    τ.store.isBranch q = false ∧ τ.store.data q = d := by
  rw [Eval.exec_new] at h
  cases h
  refine ⟨?_, ρ.store.data_new_self d⟩
  rw [Store.isBranch, Store.marks_new_self]
  rfl

section
variable (hs : settings.Calm) (h : σ.Lists document xs items) (hρ : σ.Overwrites [] ρ)
include h hρ

theorem Session.Lists.data_eq : ρ.store.data xs = .slice items :=
  (hρ.data h.known List.not_mem_nil).trans h.data

theorem exec_sortBy_ok {key : Step} {direction : SortDirection}
    (hrun : (Step.sortBy key direction xs).exec settings ρ = (.ok q, τ)) :
    τ.store.isBranch q = false ∧ ∃ picked, τ.store.data q = .slice picked ∧
    picked.Perm items := by
  rw [Step.sortBy] at hrun
  obtain ⟨_, _, helements, hrun⟩ := Eval.exec_bind_eq_ok_iff.1 hrun
  obtain ⟨hxs, rfl⟩ := exec_elements_eq_ok_iff.1 helements
  obtain ⟨keys, υ, hkeys, hrun⟩ := Eval.exec_bind_eq_ok_iff.1 hrun
  obtain ⟨trees, _, htrees, hrun⟩ := Eval.exec_bind_eq_ok_iff.1 hrun
  rw [Eval.exec_read] at htrees
  cases htrees
  obtain ⟨_, _, hnote, hnew⟩ := Eval.exec_bind_eq_ok_iff.1 hrun
  rw [Eval.exec_noteSort] at hnote
  cases hnote
  cases hxs.symm.trans (h.data_eq hρ)
  obtain ⟨hsingle, hdata⟩ := exec_new_ok hnew
  refine ⟨hsingle, _, hdata, ((perm_sortStable _).map Prod.snd).trans (.of_eq ?_)⟩
  exact List.map_snd_zip (Nat.le_of_eq (by rw [List.length_map, length_sortKeys hkeys]))

include hs

theorem exec_filter_ok (he : e.assignFree = true) (hi : e.ignoreFree = true)
    (hrun : (Step.filter e.step xs).exec settings ρ = (.ok q, τ)) :
    τ.store.isBranch q = false ∧
    τ.store.data q = .slice (items.filter (σ.holds settings e)) := by
  rw [Step.filter] at hrun
  obtain ⟨_, _, helements, hrun⟩ := Eval.exec_bind_eq_ok_iff.1 hrun
  obtain ⟨hxs, rfl⟩ := exec_elements_eq_ok_iff.1 helements
  obtain ⟨picked, υ, hkept, hnew⟩ := Eval.exec_bind_eq_ok_iff.1 hrun
  cases hxs.symm.trans (h.data_eq hρ)
  rw [← kept_eq_filter hs h he hi hρ (fun _ hx => hx) hkept]
  exact exec_new_ok hnew

theorem exec_range_ok {start stop : Option Expr} (he : (Expr.range start stop).assignFree = true)
    (hi : (Expr.range start stop).ignoreFree = true)
    (hrun : (Step.range (Expr.denoteOption start) (Expr.denoteOption stop) xs).exec settings ρ =
      (.ok q, τ)) :
    τ.store.isBranch q = false ∧ ∃ picked, τ.store.data q = .slice picked ∧
      (Selection.range start stop).Picks settings σ xs items picked := by
  simp only [Expr.assignFree, Expr.ignoreFree, Expr.all, Bool.and_eq_true] at he hi
  rw [Step.range] at hrun
  obtain ⟨i, υ, hstart, hrun⟩ := Eval.exec_bind_eq_ok_iff.1 hrun
  obtain ⟨j, ψ, hstop, hrun⟩ := Eval.exec_bind_eq_ok_iff.1 hrun
  obtain ⟨d, _, hask, hnew⟩ := Eval.exec_bind_eq_ok_iff.1 hrun
  obtain ⟨hrange, rfl⟩ := exec_ask_eq_ok_iff.1 hask
  obtain ⟨hi', hυ⟩ := bound_eq hs h he.1.2 hi.1.2 hρ hstart
  obtain ⟨hj', hψ⟩ := bound_eq hs h he.2 hi.2 hυ hstop
  rw [Store.range?, h.data_eq hψ] at hrange
  obtain ⟨picked, hpicked, hrange⟩ := Except.bind_eq_ok_iff.1 hrange
  cases hrange
  obtain ⟨hsingle, hdata⟩ := exec_new_ok hnew
  exact ⟨hsingle, picked, hdata, i, j, hi', hj', hpicked⟩

theorem Selection.exec (hfree : s.Free)
    (hrun : (Step.chain (Expr.denoteAll s.steps) xs).exec settings ρ = (.ok q, τ)) :
    σ.Overwrites [] τ ∧ τ.store.isBranch q = false ∧
      ∃ picked, τ.store.data q = .slice picked ∧ s.Picks settings σ xs items picked := by
  have hsingle := hρ.isBranch h.plain.unmarked h.known
  have hstep {e : Expr} (hfree : e.assignFree = true ∧ e.ignoreFree = true)
      (hrun : (Step.chain (Expr.denoteAll [e]) xs).exec settings ρ = (.ok q, τ)) :
      σ.Overwrites [] τ ∧ (e.denote xs).exec settings ρ = (.ok q, τ) := by
    rw [exec_chain_single] at hrun
    have hτ := hρ.evaluate hs h.plain.unmarked hfree.1 hfree.2 xs
    rw [hrun] at hτ
    exact ⟨hτ, (evaluate_eq_ok_iff _ hsingle).1 hrun⟩
  cases s with
  | all =>
    cases hrun
    exact ⟨hρ, hsingle, items, h.data_eq hρ, rfl⟩
  | filter p =>
    have hfree := hfree _ List.mem_cons_self
    obtain ⟨hτ, hdenote⟩ := hstep hfree hrun
    obtain ⟨hb, hdata⟩ := exec_filter_ok hs h hρ (e := p) hfree.1 hfree.2 hdenote
    exact ⟨hτ, hb, _, hdata, rfl⟩
  | sortBy k direction =>
    obtain ⟨hτ, hdenote⟩ := hstep (hfree _ List.mem_cons_self) hrun
    exact ⟨hτ, exec_sortBy_ok h hρ hdenote⟩
  | range a b =>
    have hfree := hfree _ List.mem_cons_self
    obtain ⟨hτ, hdenote⟩ := hstep hfree hrun
    exact ⟨hτ, exec_range_ok hs h hρ hfree.1 hfree.2 hdenote⟩

end

end DocSelect
