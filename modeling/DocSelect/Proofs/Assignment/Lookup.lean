import DocSelect.Proofs.Assignment.Writing
import DocSelect.Proofs.Frame

/-!
# Evaluating paths and assignments to them

A path is a chain of properties and of indices with constant keys, or a single one of these. Its
evaluation adds the nodes of the keys and does what the walk along its hops does. An assignment to a
path evaluates the path, then the value, and writes where the walk ends.
-/
namespace DocSelect

def Hop.expr : Hop → Expr
  | property name => .property name
  | key name => .index (.string name)
  | index i => .index (.integer i)

structure Session.Extends (before after : Session) : Prop where
  bindings : after.bindings = before.bindings
  size_le : before.store.size ≤ after.store.size
  node (r : Ref) : r.index < before.store.size → after.store.node r = before.store.node r

namespace Session.Extends

variable {σ τ υ : Session} {r : Ref}

theorem refl (σ : Session) : σ.Extends σ := ⟨rfl, Nat.le_refl _, fun _ _ => rfl⟩

theorem trans (h : σ.Extends τ) (k : τ.Extends υ) : σ.Extends υ where
  bindings := k.bindings.trans h.bindings
  size_le := Nat.le_trans h.size_le k.size_le
  node r hr := (k.node r (Nat.lt_of_lt_of_le hr h.size_le)).trans (h.node r hr)

theorem add (σ : Session) (n : Node) : σ.Extends { σ with store := (σ.store.add n).2 } where
  bindings := rfl
  size_le := by simp
  node _ hr := σ.store.node_add_of_lt n hr

theorem new (σ : Session) (d : Data) :
    σ.Extends { σ with store := (σ.store.new d).2 } := add σ _

theorem data (h : σ.Extends τ) (hr : r.index < σ.store.size) :
    τ.store.data r = σ.store.data r := by
  rw [Store.data, h.node r hr, Store.data]

theorem marks (h : σ.Extends τ) (hr : r.index < σ.store.size) :
    τ.store.marks r = σ.store.marks r := by
  rw [Store.marks, h.node r hr, Store.marks]

theorem isBranch (h : σ.Extends τ) (hr : r.index < σ.store.size) :
    τ.store.isBranch r = σ.store.isBranch r := by
  rw [Store.isBranch, h.marks hr, Store.isBranch]

theorem later (h : σ.Extends τ) : σ.Later τ where
  bindings := h.bindings
  size_le := h.size_le
  node r hr := by
    rw [h.node r hr]
    exact .refl _

end Session.Extends

variable {settings : Settings} {σ τ υ : Session} {r c target : Ref}

-- ---------------------------------------------------------------------------
-- Paths
-- ---------------------------------------------------------------------------

theorem evaluate_hop (settings : Settings) (hop : Hop) (h : σ.store.isBranch r = false)
    (hr : r.index < σ.store.size) :
    ∃ (f : ValueError → EvalError) (τ : Session), σ.Extends τ ∧
      evaluate settings hop.expr r σ = ((σ.store.hop? r hop).mapError f, τ) := by
  have hlookup {e : Expr} {x : Except ValueError Ref} {τ : Session}
      (he : (e.denote r).exec settings σ = (x.mapError .value, τ)) :
      evaluate settings e r σ = (x.mapError fun y => .within e.kindName (.value y), τ) := by
    rw [evaluate_of_not_branch e h, he]
    cases x <;> rfl
  have hnew (d : Data) : ({ σ with store := (σ.store.new d).2 } : Session).store.data r =
      σ.store.data r :=
    (Session.Extends.new σ d).data hr
  have hkey (e : Expr) (d : Data) (he : e.denote r = Eval.new d) :
      (e.lift e.denote r).exec settings σ =
        (.ok (σ.store.new d).1, { σ with store := (σ.store.new d).2 }) :=
    evaluate_ok e h (by rw [he, Eval.exec_new])
  cases hop with
  | property name =>
    refine ⟨_, σ, .refl σ, hlookup (e := .property name) ?_⟩
    rw [Expr.denote, Step.property, Eval.exec_ask]
    rfl
  | key name =>
    refine ⟨_, _, .new σ (.string name), hlookup (e := .index (.string name)) ?_⟩
    rw [Expr.denote, Step.index, Eval.exec_bind, hkey _ (.string name) (by rw [Expr.denote])]
    dsimp only
    rw [Eval.exec_bind, Eval.exec_read]
    dsimp only
    rw [Store.new, Store.data, Store.node_add_self]
    simp only [Data.string, Eval.exec_ask]
    exact congrArg (fun x : Except ValueError Ref => (x.mapError EvalError.value, _))
      (Store.hop?_congr (hnew _) (.key name))
  | index i =>
    refine ⟨_, _, .new σ (.int i), hlookup (e := .index (.integer i)) ?_⟩
    rw [Expr.denote, Step.index, Eval.exec_bind, hkey _ (.int i) (by rw [Expr.denote])]
    dsimp only
    rw [Eval.exec_bind, Eval.exec_read]
    dsimp only
    rw [Store.new, Store.data, Store.node_add_self]
    simp only [Data.int, Eval.exec_ask]
    exact congrArg (fun x : Except ValueError Ref => (x.mapError EvalError.value, _))
      (Store.hop?_congr (hnew _) (.index i))

theorem evaluate_chain_ok (settings : Settings) {roots : List Ref} {live : Ref → Prop}
    (hf : σ.store.Forest roots live) {hops : List Hop} (hw : σ.store.Walk r hops target)
    (hr : live r) (h : σ.Extends τ) :
    ∃ υ, σ.Extends υ ∧
      (Step.chain (Expr.denoteAll (hops.map Hop.expr)) r).exec settings τ = (.ok target, υ) := by
  induction hw generalizing τ with
  | here r => exact ⟨τ, h, rfl⟩
  | @hop r c target hop rest hno hhop _ ih =>
    have hlt := hf.lt hr
    obtain ⟨slot, -, hpart⟩ := Store.part?_of_hop? hhop
    obtain ⟨f, υ, hυ, he⟩ := evaluate_hop settings hop ((h.isBranch hlt).trans hno)
      (Nat.lt_of_lt_of_le hlt h.size_le)
    rw [Store.hop?_congr (h.data hlt), hhop] at he
    obtain ⟨υ', hυ', hrest⟩ := ih (hf.part hr hpart) (h.trans hυ)
    refine ⟨υ', hυ', ?_⟩
    rw [List.map_cons, Expr.denoteAll, Step.chain, Eval.exec_bind]
    have hstep : (hop.expr.lift hop.expr.denote r).exec settings τ = (.ok c, υ) := he
    rw [hstep]
    exact hrest

theorem walk_of_evaluate_chain {roots : List Ref} {live : Ref → Prop}
    (hf : σ.store.Forest roots live) (hplain : ∀ r, live r → σ.store.isBranch r = false)
    {hops : List Hop} (hr : live r) (h : σ.Extends τ)
    (he : (Step.chain (Expr.denoteAll (hops.map Hop.expr)) r).exec settings τ = (.ok target, υ)) :
    σ.store.Walk r hops target ∧ live target := by
  induction hops generalizing r τ with
  | nil =>
    obtain rfl : r = target := Except.ok.inj (Prod.mk.inj he).1
    exact ⟨.here r, hr⟩
  | cons hop rest ih =>
    have hlt := hf.lt hr
    obtain ⟨f, υ', hυ', hhop⟩ := evaluate_hop settings hop
      ((h.isBranch hlt).trans (hplain r hr)) (Nat.lt_of_lt_of_le hlt h.size_le)
    rw [Store.hop?_congr (h.data hlt)] at hhop
    have hstep : (hop.expr.lift hop.expr.denote r).exec settings τ =
        ((σ.store.hop? r hop).mapError f, υ') := hhop
    rw [List.map_cons, Expr.denoteAll, Step.chain, Eval.exec_bind, hstep] at he
    rcases hc : σ.store.hop? r hop with e | c <;> rw [hc] at he
    · cases he
    · obtain ⟨slot, -, hpart⟩ := Store.part?_of_hop? hc
      obtain ⟨hw, hlive⟩ := ih (hf.part hr hpart) (h.trans hυ') he
      exact ⟨.hop (hplain r hr) hc hw, hlive⟩

theorem Expr.path_cases {p : Expr} {hops : List Hop} (h : p.steps = hops.map Hop.expr) :
    p = .chain (hops.map Hop.expr) ∨ ∃ hop, hops = [hop] ∧ p = hop.expr := by
  have hsingle (hp : [p] = hops.map Hop.expr) : ∃ hop, hops = [hop] ∧ p = hop.expr := by
    obtain ⟨hop, rest, rfl, rfl, hnil⟩ := List.map_eq_cons_iff.1 hp.symm
    exact ⟨hop, by rw [List.map_eq_nil_iff.1 hnil], rfl⟩
  cases p with
  | chain es => exact .inl (congrArg Expr.chain h)
  | _ => exact .inr (hsingle h)

theorem evaluate_path {p : Expr} {hops : List Hop} (hp : p.steps = hops.map Hop.expr)
    (h : σ.store.isBranch r = false) :
    evaluate settings p r σ = (.ok target, τ) ↔
      (Step.chain (Expr.denoteAll (hops.map Hop.expr)) r).exec settings σ = (.ok target, τ) := by
  rcases Expr.path_cases hp with rfl | ⟨hop, rfl, rfl⟩
  · rw [evaluate_of_not_branch _ h, Expr.denote]
    split <;> simp_all
  · rw [evaluate_eq_exec, List.map_singleton, Expr.denoteAll, Expr.denoteAll, Step.chain,
      Eval.exec_bind, ← Expr.step]
    rcases (hop.expr.step r).exec settings σ with ⟨_ | _, _⟩ <;> simp [Step.chain]

-- ---------------------------------------------------------------------------
-- Assignments
-- ---------------------------------------------------------------------------

theorem exec_writeInto (settings : Settings) (target value : Ref) (σ : Session) :
    ∃ result, (Step.writeInto target none value).exec settings σ =
      (.ok result, { σ with store := σ.store.set target value }) := by
  unfold Step.writeInto
  simp only [pure_bind, Eval.exec_bind, Eval.exec_change, Eval.exec_read]
  split <;> exact ⟨_, rfl⟩

theorem exec_writeInto_of_container {value : Ref}
    (h : (σ.store.set target value).isScalar target = false) :
    (Step.writeInto target none value).exec settings σ =
      (.ok target, { σ with store := σ.store.set target value }) := by
  unfold Step.writeInto
  simp [Eval.exec_bind, h]

theorem evaluate_assign_of_write {p v : Expr} {result : Ref} {ψ : Session}
    (hname : p.bindable? = none) (h : σ.store.isBranch r = false)
    (hp : evaluate settings p r σ = (.ok target, τ)) (hno : τ.store.isBranch target = false)
    (hv : evaluate settings v r τ = (.ok c, υ))
    (hwrite : (Step.writeInto target none c).exec settings υ = (.ok result, ψ)) :
    evaluate settings (.assign p none v) r σ = (.ok result, ψ) := by
  have hp' : (p.lift p.denote r).exec settings σ = (.ok target, τ) := hp
  have hv' : (v.lift v.denote r).exec settings τ = (.ok c, υ) := hv
  refine evaluate_ok _ h ?_
  rw [Expr.denote, hname]
  unfold Step.assign
  simp [Eval.exec_bind, hp', hno, hv', hwrite]

theorem evaluate_assign {p v : Expr} (hname : p.bindable? = none) (h : σ.store.isBranch r = false)
    (hp : evaluate settings p r σ = (.ok target, τ)) (hno : τ.store.isBranch target = false)
    (hv : evaluate settings v r τ = (.ok c, υ)) :
    ∃ result, evaluate settings (.assign p none v) r σ =
      (.ok result, { υ with store := υ.store.set target c }) := by
  obtain ⟨result, hwrite⟩ := exec_writeInto settings target c υ
  exact ⟨result, evaluate_assign_of_write hname h hp hno hv hwrite⟩

end DocSelect
