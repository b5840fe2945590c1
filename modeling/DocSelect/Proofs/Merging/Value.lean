import DocSelect.Proofs.Alike.Trim
import DocSelect.Proofs.Copying
import DocSelect.Proofs.Frame
import DocSelect.Proofs.Merging.Shape
import DocSelect.Proofs.Reachable

/-!
# Expressions as functions of values

A value is what nodes have in common that are paired in alike sessions. What an expression makes of
a node depends on nothing else, so its meaning is a function of values, to one value or to the row
of those in a branch.

Expressions that write nothing and mark nothing leave the values of all nodes as they are. So
evaluating one of these on a branch, element by element, is going over the values that the elements
have before.
-/
namespace DocSelect

variable {settings : Settings} {σ τ : Session} {m : Pairing} {a b r c : Ref} {e : Expr}

-- ---------------------------------------------------------------------------
-- Values
-- ---------------------------------------------------------------------------

def Like (p q : Session × Ref) : Prop := ∃ m, p.1.Alike m q.1 ∧ m p.2 q.2

def Value : Type := Quot Like

def Value.content : Value → Content :=
  Quot.lift (fun p => p.1.store.content p.2) fun _ _ ⟨_, h, hab⟩ => h.store.content_eq hab

namespace Session

def value (σ : Session) (r : Ref) : Value := Quot.mk Like (σ, r)

def shape (σ : Session) (r : Ref) : Shape Value :=
  if σ.store.isBranch r then .many ((σ.store.data r).children.map σ.value)
  else .single (σ.value r)

theorem Alike.value_eq (h : σ.Alike m τ) (hab : m a b) : σ.value a = τ.value b :=
  Quot.sound ⟨m, h, hab⟩

theorem Alike.shape_eq (h : σ.Alike m τ) (hab : m a b) : σ.shape a = τ.shape b := by
  have hvalues {as bs : List Ref} (hall : List.Forall₂ m as bs) :
      as.map σ.value = bs.map τ.value := by
    induction hall with
    | nil => rfl
    | cons hab _ ih => exact congrArg₂ List.cons (h.value_eq hab) ih
  rw [shape, shape, h.store.isBranch_eq hab, hvalues (h.store.data hab).children, h.value_eq hab]

theorem shape_single (h : σ.store.isBranch r = false) : σ.shape r = .single (σ.value r) := by
  rw [shape, h]
  rfl

end Session

def Shape.result : Except EvalError Ref × Session → Option (Shape Value)
  | (.ok r, τ) => some (τ.shape r)
  | (.error _, _) => none

/-- Evaluations of an expression on nodes of the same value result in the same values. -/
theorem result_eq_of_alike (hg : settings.Respectful) (e : Expr) (h : σ.Alike m τ) (hab : m a b) :
    Shape.result (evaluate settings e a σ) = Shape.result (evaluate settings e b τ) := by
  obtain ⟨l, -, halike, hresult⟩ := evaluate_alike hg e hab h
  generalize evaluate settings e a σ = x, evaluate settings e b τ = y at halike hresult
  obtain ⟨p, σ'⟩ := x
  obtain ⟨q, τ'⟩ := y
  cases hresult with
  | ok hcd => exact congrArg some (halike.shape_eq hcd)
  | error => rfl

def Expr.meaning (hg : settings.Respectful) (e : Expr) : Value → Option (Shape Value) :=
  Quot.lift (fun p => Shape.result (evaluate settings e p.2 p.1))
    fun _ _ ⟨_, h, hab⟩ => result_eq_of_alike hg e h hab

theorem meaning_value (hg : settings.Respectful) (e : Expr) (σ : Session) (r : Ref) :
    e.meaning hg (σ.value r) = Shape.result (evaluate settings e r σ) := rfl

-- ---------------------------------------------------------------------------
-- What is seen of a result
-- ---------------------------------------------------------------------------

/-- The content, and whether it is that of a branch. -/
def Shape.seen : Shape Value → Content × Bool
  | single v => (v.content, false)
  | many vs => (.slice (vs.map Value.content), true)

/-- What is seen of the result of an evaluation that succeeds. -/
def seen : Except EvalError Ref × Session → Option (Content × Bool)
  | (.ok r, τ) => some (τ.store.content r, τ.store.isBranch r)
  | (.error _, _) => none

theorem Session.Sound.seen_shape (h : σ.Sound .soundness) (r : Ref) :
    (σ.shape r).seen = (σ.store.content r, σ.store.isBranch r) := by
  rw [shape]
  cases hb : σ.store.isBranch r with
  | false => rfl
  | true =>
    obtain ⟨items, hd, -⟩ := h.store.flat r hb
    have hvalues : (items.map σ.value).map Value.content = items.map σ.store.content := by
      rw [List.map_map]
      rfl
    rw [if_pos rfl, (h.store.grounded r).content_eq, hd, Data.children, Shape.seen, hvalues,
      Data.contentWith]

theorem seen_eq {outcome : Except EvalError Ref × Session} (h : outcome.2.Sound .soundness) :
    seen outcome = (Shape.result outcome).map Shape.seen := by
  obtain ⟨_ | r, τ⟩ := outcome
  · rfl
  · exact congrArg some (h.seen_shape r).symm

-- ---------------------------------------------------------------------------
-- Expressions without effects
-- ---------------------------------------------------------------------------

/-- An expression that writes nothing, and marks no node as a spread or as ignored. -/
structure Expr.Quiet (e : Expr) : Prop where
  assignFree : e.assignFree = true
  spreadFree : e.spreadFree = true
  ignoreFree : e.ignoreFree = true

structure Session.Clean (σ : Session) : Prop where
  sound : σ.Sound .soundness
  shown : σ.store.Bears Marks.Shown
  whole : σ.store.Bears Marks.Whole

theorem Session.Later.single (h : σ.Later τ) (hr : σ.store.Single r) : τ.store.Single r :=
  ⟨Nat.lt_of_lt_of_le hr.known h.size_le, (h.node r hr.known).branch.trans hr.not_branch⟩

namespace Session.Clean

theorem evaluate (hs : settings.Regular) (h : σ.Clean) (hr : σ.store.Known r) (he : e.Quiet)
    {result : Except EvalError Ref} (heq : DocSelect.evaluate settings e r σ = (result, τ)) :
    τ.Clean ∧ σ.Later τ ∧ ∀ q, result = .ok q → τ.store.Known q := by
  obtain ⟨-, hsound, -, hknown⟩ := h.sound.outcome hs.keeping e hr
  have hshown := evaluate_leads_of_permits hs.shown he.ignoreFree r σ h.shown
  have hwhole := evaluate_leads_of_permits hs.whole he.spreadFree r σ h.whole
  have hlater :=
    evaluate_leads_of_assignFree Session.Later.tolerant hs.keeping.gentle he.assignFree r σ
  rw [← evaluate_eq_exec] at hsound hknown
  rw [heq] at hsound hknown hshown hwhole hlater
  exact ⟨⟨hsound, hshown, hwhole⟩, hlater, hknown⟩

theorem isIgnored (h : σ.Clean) (r : Ref) : σ.store.isIgnored r = false := h.shown r

theorem elements_shape (h : σ.Clean) {taken : List Ref} (htaken : σ.store.flatten r = .ok taken) :
    (σ.shape r).elements = taken.map σ.value := by
  rw [h.sound.store.flatten_eq] at htaken
  cases htaken
  rw [shape]
  cases σ.store.isBranch r <;> rfl

variable (h : σ.Clean) (hτ : τ.Clean) (hlater : σ.Later τ)
include h hτ hlater

theorem alike : σ.Alike (fun a b => a = b ∧ σ.store.Known a) τ where
  store := by
    refine .of_kept (fun hr => ⟨hr, Nat.lt_of_lt_of_le hr hlater.size_le⟩)
      (fun _ => h.sound.store.grounded _)
      (fun _ hc => h.sound.store.part_known hc) (fun hr => (hlater.node _ hr).data) fun hr => ?_
    exact ⟨(hlater.node _ hr).branch.symm, (h.whole _).trans (hτ.whole _).symm,
      (h.shown _).trans (hτ.shown _).symm⟩
  bindings := by
    rw [hlater.bindings]
    exact List.forall₂_same.2 fun e he =>
      ⟨rfl, rfl, h.sound.bindings (List.mem_map_of_mem he)⟩

theorem value_eq (hr : σ.store.Known r) : τ.value r = σ.value r :=
  ((h.alike hτ hlater).value_eq ⟨rfl, hr⟩).symm

theorem values_eq {items : List Ref} (hitems : ∀ r ∈ items, σ.store.Known r) :
    items.map τ.value = items.map σ.value :=
  List.map_congr_left fun r hr => h.value_eq hτ hlater (hitems r hr)

end Session.Clean

-- ---------------------------------------------------------------------------
-- Evaluating and looking at the values
-- ---------------------------------------------------------------------------

variable {α β γ δ : Type}

/-- What is seen of an evaluation that begins in a session: nothing if it fails, and otherwise what
is seen of a fitting result in the session that it leaves, which is a clean later one. -/
inductive Session.Gives (σ : Session) (fits : Session → α → Prop)
    (view : Session → α → β) :
    Except EvalError α × Session → Option β → Prop
  | ok {a : α} {τ : Session} (clean : τ.Clean) (later : σ.Later τ) (hfits : fits τ a) :
    Gives σ fits view (.ok a, τ) (some (view τ a))
  | error (e : EvalError) (τ : Session) : Gives σ fits view (.error e, τ) none

namespace Session.Gives

variable {fits : Session → α → Prop} {view : Session → α → β}
  {fits' : Session → γ → Prop} {view' : Session → γ → δ}

theorem of_later {outcome : Except EvalError α × Session} {y : Option β}
    (h : τ.Gives fits view outcome y) (hlater : σ.Later τ) : σ.Gives fits view outcome y := by
  cases h with
  | ok clean later hfits => exact .ok clean (hlater.trans later) hfits
  | error => exact .error ..

theorem bind {x : Eval α} {f : α → Eval γ} {y : Option β} {g : β → Option δ}
    (h : σ.Gives fits view (x.exec settings σ) y)
    (hf : ∀ a τ, τ.Clean → σ.Later τ → fits τ a →
      τ.Gives fits' view' ((f a).exec settings τ) (g (view τ a))) :
    σ.Gives fits' view' ((x >>= f).exec settings σ) (y.bind g) := by
  rw [Eval.exec_bind]
  generalize x.exec settings σ = outcome at h
  cases h with
  | ok clean later hfits => exact (hf _ _ clean later hfits).of_later later
  | error => exact .error ..

end Session.Gives

abbrev Session.GivesNode (σ : Session) :
    Except EvalError Ref × Session → Option (Shape Value) → Prop :=
  σ.Gives (fun τ r => τ.store.Known r) shape

abbrev Session.GivesRow (σ : Session) :
    Except EvalError (List Ref) × Session → Option (List Value) → Prop :=
  σ.Gives (fun τ rs => ∀ r ∈ rs, τ.store.Single r) fun τ rs => rs.map τ.value

theorem Session.GivesNode.result_eq {outcome : Except EvalError Ref × Session}
    {y : Option (Shape Value)} (h : σ.GivesNode outcome y) : Shape.result outcome = y := by
  cases h <;> rfl

theorem Session.Clean.gives_result (hs : settings.Regular) (h : σ.Clean) (hr : σ.store.Known r)
    (he : e.Quiet) :
    σ.GivesNode (DocSelect.evaluate settings e r σ)
      (Shape.result (DocSelect.evaluate settings e r σ)) := by
  rcases heq : DocSelect.evaluate settings e r σ with ⟨x | q, τ⟩
  · exact .error ..
  · obtain ⟨hτ, hlater, hq⟩ := h.evaluate hs hr he heq
    exact .ok hτ hlater (hq q rfl)

theorem Session.Clean.gives_collectKept (hs : settings.Regular) (h : σ.Clean) (he : e.Quiet)
    {items : List Ref} (hitems : ∀ r ∈ items, σ.store.Single r) :
    σ.GivesRow ((Step.collectKept (Step.within e.kindName e.denote) items).exec settings σ)
      (Shape.gather (e.meaning hs.respectful) (items.map σ.value)) := by
  induction items generalizing σ with
  | nil => exact .ok h (.refl σ) fun _ hr => absurd hr List.not_mem_nil
  | cons r items ih =>
    have hr := hitems r List.mem_cons_self
    have hrest (c : Ref) (hc : c ∈ items) := hitems c (List.mem_cons_of_mem _ hc)
    have hfirst := h.gives_result hs hr.known he
    rw [← meaning_value hs.respectful, evaluate_eq_within e hr.not_branch] at hfirst
    rw [Step.collectKept, List.map_cons, Shape.gather]
    refine hfirst.bind fun q τ hτ hlater hq => ?_
    rw [Eval.exec_bind, Eval.exec_read]
    simp only [hτ.isIgnored q, Bool.false_eq_true, if_false]
    obtain ⟨taken, htaken⟩ : ∃ taken, τ.store.flatten q = .ok taken :=
      ⟨_, hτ.sound.store.flatten_eq⟩
    have hsingle := hτ.sound.store.flatten_single hq htaken
    rw [Eval.exec_bind, Eval.exec_ask, htaken, hτ.elements_shape htaken,
      -- the elements that are left have the values that they had before
      ← h.values_eq hτ hlater fun c hc => (hrest c hc).known]
    refine (ih hτ fun c hc => hlater.single (hrest c hc)).bind fun rs υ hυ hlater' hrs => ?_
    rw [← hτ.values_eq hυ hlater' fun c hc => (hsingle c hc).known]
    simp only [pure, ← List.map_append]
    refine .ok hυ (.refl υ) fun c hc => ?_
    rcases List.mem_append.1 hc with hc | hc
    · exact hlater'.single (hsingle c hc)
    · exact hrs c hc

theorem Session.Clean.gives_newBranch (h : σ.Clean) {items : List Ref}
    (hitems : ∀ r ∈ items, σ.store.Single r) :
    σ.GivesNode ((Eval.newBranch items).exec settings σ) (some (.many (items.map σ.value))) := by
  let n : Node := ⟨.slice items, { Marks.none with branch := true }⟩
  have hself : (σ.store.add n).2.node (σ.store.add n).1 = n := σ.store.node_add_self n
  have hsound : (σ.store.add n).2.Sound .soundness :=
    h.sound.store.add (fun c hc => ⟨(hitems c hc).known, fun hw => by cases hw⟩)
      fun _ => ⟨items, rfl, fun c hc => (hitems c hc).not_branch⟩
  have hclean : Clean { σ with store := (σ.store.add n).2 } :=
    ⟨h.sound.change hsound (σ.store.onward_add n), h.shown.add rfl, h.whole.add rfl⟩
  have hlater : σ.Later { σ with store := (σ.store.add n).2 } :=
    Session.Later.tolerant.lenient.branch σ items
  have hshape : shape { σ with store := (σ.store.add n).2 } (σ.store.add n).1 =
      .many (items.map σ.value) := by
    rw [shape, Store.isBranch, Store.marks, Store.data, hself,
      ← h.values_eq hclean hlater fun c hc => (hitems c hc).known]
    rfl
  rw [Eval.exec_newBranch, ← hshape]
  exact .ok hclean hlater (σ.store.known_add_self n)

/-- Evaluating an expression without effects is going over the values of the subject with its
meaning. -/
theorem Session.Clean.gives_evaluate (hs : settings.Regular) (h : σ.Clean) (hr : σ.store.Known r)
    (he : e.Quiet) :
    σ.GivesNode (DocSelect.evaluate settings e r σ)
      ((σ.shape r).each (e.meaning hs.respectful)) := by
  cases hb : σ.store.isBranch r with
  | false =>
    rw [shape_single hb]
    exact h.gives_result hs hr he
  | true =>
    obtain ⟨items, hd, -⟩ := h.sound.store.flat r hb
    have hitems : ∀ c ∈ items, σ.store.Single c := fun c hc =>
      h.sound.store.element_single hb (by rwa [Store.Part, hd])
    have hask : σ.store.items? r = .ok items := by rw [Store.items?, hd]
    rw [evaluate_of_branch e hb, Eval.exec_bind, Eval.exec_ask, hask, shape,
      if_pos hb, hd, Shape.each, Option.map_eq_bind]
    exact (h.gives_collectKept hs he hitems).bind fun rs τ hτ _ hrs => hτ.gives_newBranch hrs

end DocSelect
