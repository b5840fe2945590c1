import DocSelect.Proofs.Execution
import Mathlib.Logic.Relation

/-!
# Effects

An evaluation changes a session by small effects, one after the other. Most of them leave the data
of every node alone: they add a node, or mark one. Only an assignment does more: it writes into a
node, or binds a variable.

A relation between sessions that holds along each effect, and along one after another, holds between
the beginning and the end of every evaluation. That is shown here once for the parts of evaluation,
so that a property of whole evaluations asks only for the few effects.

What all steps do is little: they add nodes without marks or branches, and take spread marks away. A
spread, an assignment and the call of a function do more, so a relation that does not hold along
those says something about the expressions without them.
-/
namespace DocSelect

inductive Store.Touch : Store → Store → Prop
  | add (s : Store) (n : Node) : Touch s (s.add n).2
  | ignore (s : Store) (r : Ref) : Touch s (s.markIgnored r)
  | clearSpread (s : Store) (r : Ref) : Touch s (s.clearSpread r)

abbrev Store.Touches : Store → Store → Prop := Relation.ReflTransGen Store.Touch

structure Lenient (R : Session → Session → Prop) : Prop where
  refl (σ : Session) : R σ σ
  trans {σ τ υ : Session} : R σ τ → R τ υ → R σ υ
  new (σ : Session) (d : Data) : R σ { σ with store := (σ.store.new d).2 }
  branch (σ : Session) (items : List Ref) :
    R σ
      { σ with store := (σ.store.add ⟨.slice items, { Marks.none with branch := true }⟩).2 }
  clearSpread (σ : Session) (r : Ref) : R σ { σ with store := σ.store.clearSpread r }

def Spreadable (R : Session → Session → Prop) : Prop := ∀ (σ : Session) (items : List Ref),
  R σ { σ with store := (σ.store.add ⟨.slice items, { Marks.none with spread := true }⟩).2 }

structure Writable (R : Session → Session → Prop) : Prop where
  write (σ : Session) (target value : Ref) : R σ { σ with store := σ.store.set target value }
  bind (σ : Session) (name : String) : σ.bindings.contains name = false →
    R σ ⟨(σ.store.new .null).2, σ.bindings.insert name (σ.store.new .null).1⟩

structure Tolerant (R : Session → Session → Prop) : Prop where
  refl (σ : Session) : R σ σ
  trans {σ τ υ : Session} : R σ τ → R τ υ → R σ υ
  touch (σ : Session) {s : Store} : Store.Touch σ.store s → R σ { σ with store := s }

structure TolerantOfWriting (R : Session → Session → Prop) : Prop extends Tolerant R where
  write (σ : Session) (target value : Ref) : R σ { σ with store := σ.store.set target value }
  bind (σ : Session) (name : String) : σ.bindings.contains name = false →
    R σ ⟨(σ.store.new .null).2, σ.bindings.insert name (σ.store.new .null).1⟩

namespace Tolerant

variable {R : Session → Session → Prop}

theorem lenient (hR : Tolerant R) : Lenient R where
  refl := hR.refl
  trans := hR.trans
  new σ _ := hR.touch σ (.add _ _)
  branch σ _ := hR.touch σ (.add _ _)
  clearSpread σ r := hR.touch σ (.clearSpread _ r)

theorem spreadable (hR : Tolerant R) : Spreadable R := fun σ _ => hR.touch σ (.add _ _)

theorem touches (hR : Tolerant R) (σ : Session) {s : Store} (h : σ.store.Touches s) :
    R σ { σ with store := s } := by
  induction h with
  | refl => exact hR.refl σ
  | tail _ h ih => exact hR.trans ih (hR.touch _ h)

end Tolerant

theorem TolerantOfWriting.writable {R : Session → Session → Prop} (hW : TolerantOfWriting R) :
    Writable R := ⟨hW.write, hW.bind⟩

-- ---------------------------------------------------------------------------
-- Nodes that are marked as soon as they are there
-- ---------------------------------------------------------------------------

theorem Store.mark_add_self (s : Store) (n : Node) (f : Marks → Marks) :
    (s.add n).2.mark (s.add n).1 f = (s.add ⟨n.data, f n.marks⟩).2 := by
  simp only [mark, modify, add, mk.injEq]
  apply Array.ext_getElem?
  intro i
  by_cases h : i = s.nodes.size <;> grind

theorem Eval.exec_newBranch (settings : Settings) (items : List Ref) (σ : Session) :
    (newBranch items).exec settings σ =
      (.ok (σ.store.add ⟨.slice items, { Marks.none with branch := true }⟩).1,
        { σ with
          store := (σ.store.add ⟨.slice items, { Marks.none with branch := true }⟩).2 }) := by
  rw [← Store.mark_add_self σ.store ⟨.slice items, Marks.none⟩ fun m =>
    { m with branch := true }]
  rfl

theorem Store.touch_new (s : Store) (d : Data) : s.Touch (s.new d).2 := .add s _

-- ---------------------------------------------------------------------------
-- Actions
-- ---------------------------------------------------------------------------

variable {α β : Type}

/-- A relation between stores that holds along what actions do: they add nodes without marks, and
copies. -/
structure Store.Lenient (T : Store → Store → Prop) : Prop where
  refl (s : Store) : T s s
  trans {s t u : Store} : T s t → T t u → T s u
  new (s : Store) (d : Data) : T s (s.new d).2
  copy (s : Store) (r : Ref) : T s (s.deepCopy r).2

def Action.Leads (T : Store → Store → Prop) (a : Action α) : Prop := ∀ s, T s (a.exec s).2

def Action.Gentle (a : Action α) : Prop := ∀ s : Store, s.Touches (a.exec s).2

namespace Action.Leads

variable {T : Store → Store → Prop} (hT : Store.Lenient T)
include hT

theorem of_exec {a : Action α} (h : ∀ s, (a.exec s).2 = s) : a.Leads T :=
  fun s => by rw [h s]; exact hT.refl s

theorem pure (a : α) : Leads T (pure a) := of_exec hT fun _ => rfl

theorem throw (e : EvalError) : Leads T (throw e : Action α) := of_exec hT fun _ => rfl

theorem refuse (problem : ArgumentProblem) : Leads T (refuse problem : Action α) :=
  of_exec hT fun _ => rfl

theorem read (f : Store → α) : Leads T (read f) := of_exec hT fun _ => rfl

theorem get : Leads T (MonadState.get : Action Store) := of_exec hT fun _ => rfl

theorem ask (f : Store → Except ValueError α) : Leads T (ask f) :=
  of_exec hT fun s => by rw [exec_ask]

theorem new (d : Data) : Leads T (new d) := fun s => hT.new s d

theorem deepCopy (r : Ref) : Leads T (modifyGet (·.deepCopy r) : Action Ref) :=
  fun s => hT.copy s r

theorem bind {a : Action α} {f : α → Action β} (ha : a.Leads T) (hf : ∀ r, (f r).Leads T) :
    Leads T (a >>= f) := by
  intro s
  have h := ha s
  rw [exec_bind]
  rcases hs : a.exec s with ⟨e | r, t⟩ <;> rw [hs] at h
  · exact h
  · exact hT.trans h (hf r t)

end Action.Leads

def Function.Leads (R : Session → Session → Prop) (f : Function) : Prop :=
  ∀ (subject : Ref) (arguments : List Ref) (σ : Session),
    R σ { σ with store := ((f.run subject arguments).exec σ.store).2 }

-- ---------------------------------------------------------------------------
-- Evaluations
-- ---------------------------------------------------------------------------

def Eval.Leads (settings : Settings) (R : Session → Session → Prop) (x : Eval α) : Prop :=
  ∀ σ, R σ (x.exec settings σ).2

abbrev Step.Leads (settings : Settings) (R : Session → Session → Prop) (f : Step) : Prop :=
  ∀ subject, Eval.Leads settings R (f subject)

variable {settings : Settings} {R : Session → Session → Prop}

namespace Eval.Leads

theorem of_exec (hR : Lenient R) {x : Eval α} (h : ∀ σ, (x.exec settings σ).2 = σ) :
    Leads settings R x := fun σ => by rw [h σ]; exact hR.refl σ

theorem pure (hR : Lenient R) (a : α) : Leads settings R (pure a) := of_exec hR fun _ => rfl

theorem throw (hR : Lenient R) (e : EvalError) : Leads settings R (throw e : Eval α) :=
  of_exec hR fun _ => rfl

theorem read (hR : Lenient R) (f : Store → α) : Leads settings R (read f) :=
  of_exec hR fun _ => rfl

theorem get (hR : Lenient R) : Leads settings R (get : Eval Session) := of_exec hR fun _ => rfl

theorem noteSort (hR : Lenient R) (keys : List Ref) : Leads settings R (noteSort keys) :=
  of_exec hR fun _ => rfl

theorem readSettings (hR : Lenient R) : Leads settings R (MonadReader.read : Eval Settings) :=
  of_exec hR fun _ => rfl

theorem ask (hR : Lenient R) (f : Store → Except ValueError α) : Leads settings R (ask f) :=
  of_exec hR fun σ => by rw [exec_ask]

theorem bind (hR : Lenient R) {x : Eval α} {f : α → Eval β} (hx : Leads settings R x)
    (hf : ∀ r, Leads settings R (f r)) : Leads settings R (x >>= f) := by
  intro σ
  have h := hx σ
  rw [exec_bind]
  rcases hσ : x.exec _ σ with ⟨e | r, τ⟩ <;> rw [hσ] at h
  · exact h
  · exact hR.trans h (hf r τ)

theorem tryCatch (hR : Lenient R) {x : Eval α} {handle : EvalError → Eval α}
    (hx : Leads settings R x) (hf : ∀ e, Leads settings R (handle e)) :
    Leads settings R (tryCatch x handle) := by
  intro σ
  have h := hx σ
  rw [exec_tryCatch]
  rcases hσ : x.exec _ σ with ⟨e | r, τ⟩ <;> rw [hσ] at h
  · exact hR.trans h (hf e τ)
  · exact h

theorem act {a : Action α} (ha : ∀ σ : Session, R σ { σ with store := (a.exec σ.store).2 }) :
    Leads settings R (act a) := by
  intro σ
  rw [exec_act]
  exact ha σ

theorem new (hR : Lenient R) (d : Data) : Leads settings R (new d) := act fun σ => hR.new σ d

theorem newBranch (hR : Lenient R) (items : List Ref) : Leads settings R (newBranch items) := by
  intro σ
  rw [exec_newBranch]
  exact hR.branch σ items

theorem clearSpread (hR : Lenient R) (r : Ref) :
    Leads settings R (change (·.clearSpread r)) := fun σ => hR.clearSpread σ r

end Eval.Leads

end DocSelect
