import DocSelect.Proofs.Assignment.Lookup

/-!
# Constants

Literals, and arrays and objects that are put together from them. They have the same content on
every subject, in new nodes, which no further node changes.
-/
namespace DocSelect

namespace Expr

mutual

def constant? : Expr → Option Content
  | float x => some (.float x)
  | integer i => some (.int i)
  | string s => some (.string s)
  | boolean b => some (.bool b)
  | null => some .null
  | array items => (constants? items).map .slice
  | object entries => (constantEntries? Dict.empty entries).map fun d => .map d.entries
  | group inner => constant? inner
  | _ => none

def constants? : List Expr → Option (List Content)
  | [] => some []
  | e :: es => do return (← constant? e) :: (← constants? es)

def constantEntries? : Dict Content → List ObjectEntry → Option (Dict Content)
  | d, [] => some d
  | d, .pair key value :: rest => do
    match ← constant? key with
    | .scalar (.string k) => constantEntries? (d.insert k (← constant? value)) rest
    | _ => none
  | _, .spread _ :: _ => none

end

end Expr

structure Session.Permanent (σ : Session) (r : Ref) (c : Content) : Prop where
  lt : r.index < σ.store.size
  marks : σ.store.marks r = Marks.none
  holds {τ : Session} : σ.Extends τ → τ.store.Holds r c

namespace Session.Permanent

variable {σ τ : Session} {r : Ref} {c : Content}

theorem mono (h : σ.Permanent r c) (hτ : σ.Extends τ) : τ.Permanent r c where
  lt := Nat.lt_of_lt_of_le h.lt hτ.size_le
  marks := (hτ.marks h.lt).trans h.marks
  holds hυ := h.holds (hτ.trans hυ)

theorem new {d : Data}
    (h : ∀ {τ : Session}, σ.Extends τ → ∀ r, τ.store.data r = d → τ.store.Holds r c) :
    Permanent { σ with store := (σ.store.new d).2 } (σ.store.new d).1 c := by
  have hlt : (σ.store.new d).1.index < (σ.store.new d).2.size := by
    rw [Store.new, Store.size_add]
    exact Nat.lt_succ_self _
  refine ⟨hlt, by rw [Store.new, Store.marks, Store.node_add_self], fun hτ => ?_⟩
  refine h ((Extends.new σ d).trans hτ) _ ?_
  rw [hτ.data hlt, Store.new, Store.data, Store.node_add_self]

theorem isBranch_eq (h : σ.Permanent r c) : σ.store.isBranch r = false := by
  rw [Store.isBranch, h.marks]
  rfl

theorem isSpread_eq (h : σ.Permanent r c) : σ.store.isSpread r = false := by
  rw [Store.isSpread, h.marks]
  rfl

theorem contribution_eq (h : σ.Permanent r c) : σ.store.contribution r = .ok [r] := by
  simp [Store.contribution, h.isSpread_eq, Store.flatten, Store.flattenWithin, h.isBranch_eq]

theorem extends_clearSpread (h : σ.Permanent r c) :
    σ.Extends { σ with store := σ.store.clearSpread r } where
  bindings := rfl
  size_le := by simp [Store.clearSpread, Store.mark]
  node q hq := by
    rw [Store.clearSpread, Store.mark]
    by_cases heq : q = r
    · subst heq
      rw [Store.node_modify_self _ _ h.lt]
      have hmarks : (σ.store.node q).marks = Marks.none := h.marks
      simp only [hmarks, Marks.none]
      rw [← Marks.none, ← hmarks]
    · rw [Store.node_modify_of_ne _ _ heq]

end Session.Permanent

section
variable (settings : Settings)

def Makes (x : Eval Ref) (σ : Session) (c : Content) : Prop :=
  ∃ b τ, x.exec settings σ = (.ok b, τ) ∧ σ.Extends τ ∧ τ.Permanent b c

variable {settings} {σ : Session} {r : Ref}

theorem Makes.lift {e : Expr} {c : Content} (hr : σ.store.isBranch r = false)
    (h : Makes settings (e.denote r) σ c) : Makes settings (e.step r) σ c := by
  obtain ⟨b, τ, he, hrest⟩ := h
  exact ⟨b, τ, evaluate_ok e hr he, hrest⟩

theorem Makes.new {d : Data} {c : Content}
    (h : ∀ {τ : Session}, σ.Extends τ → ∀ r, τ.store.data r = d → τ.store.Holds r c) :
    Makes settings (Eval.new d) σ c := ⟨_, _, Eval.exec_new .., .new σ d, .new h⟩

theorem Makes.scalar (a : Scalar) : Makes settings (Eval.new (.scalar a)) σ (.scalar a) :=
  .new fun _ _ h => .scalar h

mutual

theorem makes_constant : (e : Expr) → {c : Content} → e.constant? = some c →
    {σ : Session} →
    σ.store.isBranch r = false → r.index < σ.store.size → Makes settings (e.step r) σ c
  | .float _, _, h, _, hr, _ | .integer _, _, h, _, hr, _ | .string _, _, h, _, hr, _
  | .boolean _, _, h, _, hr, _ | .null, _, h, _, hr, _ => by
    cases h
    refine .lift hr ?_
    rw [Expr.denote]
    exact .scalar _
  | .group inner, _, h, _, hr, hlt => by
    rw [Expr.constant?] at h
    refine .lift hr ?_
    rw [Expr.denote]
    exact makes_constant inner h hr hlt
  | .array items, _, h, σ, hr, hlt => by
    rw [Expr.constant?] at h
    obtain ⟨cs, hcs, rfl⟩ := Option.map_eq_some_iff.1 h
    obtain ⟨bs, τ, he, hτ, hbs⟩ := gather_constants items hcs hr hlt
    obtain ⟨b, υ, hnew, hυ, hb⟩ : Makes settings (Eval.new (.slice bs)) τ (.slice cs) :=
      .new fun hτ _ hd => .slice hd (hbs.imp fun _ _ hbc => hbc.holds hτ)
    refine .lift hr ⟨b, υ, ?_, hτ.trans hυ, hb⟩
    rw [Expr.denote, Step.array, Eval.exec_bind, he]
    exact hnew
  | .object entries, _, h, σ, hr, hlt => by
    rw [Expr.constant?] at h
    obtain ⟨d, hd, rfl⟩ := Option.map_eq_some_iff.1 h
    have hempty : Assoc.Alike σ.Permanent (Dict.empty : Dict Ref).entries
      (Dict.empty : Dict Content).entries := .nil
    obtain ⟨d', τ, he, hτ, hentries⟩ := addEntries_constants entries hd hempty hr hlt
    obtain ⟨b, υ, hnew, hυ, hb⟩ : Makes settings (Eval.new (.map d')) τ (.map d.entries) :=
      .new fun hτ _ hd => .map hd
        (List.Forall₂.imp (fun _ _ hbc => ⟨hbc.1, hbc.2.holds hτ⟩) hentries)
    refine .lift hr ⟨b, υ, ?_, hτ.trans hυ, hb⟩
    rw [Expr.denote, Step.object, Eval.exec_bind, he]
    exact hnew

theorem gather_constants : (es : List Expr) → {cs : List Content} →
    Expr.constants? es = some cs →
    {σ : Session} → σ.store.isBranch r = false → r.index < σ.store.size →
    ∃ bs τ, (Step.gather Store.contribution (Expr.denoteAll es) r).exec settings σ =
      (.ok bs, τ) ∧ σ.Extends τ ∧ List.Forall₂ τ.Permanent bs cs
  | [], _, h, σ, _, _ => by
    cases h
    exact ⟨[], σ, rfl, .refl σ, .nil⟩
  | e :: es, _, h, σ, hr, hlt => by
    simp only [Expr.constants?, Option.bind_eq_bind, Option.bind_eq_some_iff, Option.pure_def,
      Option.some.injEq] at h
    obtain ⟨c, hc, cs, hcs, rfl⟩ := h
    obtain ⟨b, τ, he, hτ, hb⟩ := makes_constant e hc hr hlt
    obtain ⟨bs, υ, hes, hυ, hbs⟩ := gather_constants es hcs ((hτ.isBranch hlt).trans hr)
      (Nat.lt_of_lt_of_le hlt hτ.size_le)
    refine ⟨b :: bs, υ, ?_, hτ.trans hυ, .cons (hb.mono hυ) hbs⟩
    have hstep : (e.lift e.denote r).exec settings σ = (.ok b, τ) := he
    rw [Expr.denoteAll, Step.gather, Eval.exec_bind, hstep]
    dsimp only
    rw [Eval.exec_bind, Eval.exec_ask, hb.contribution_eq]
    dsimp only [Except.mapError]
    rw [Eval.exec_bind, hes]
    rfl

theorem addEntries_constants :
    (es : List ObjectEntry) → {d c : Dict Content} → {d' : Dict Ref} →
    Expr.constantEntries? d es = some c → {σ : Session} →
    Assoc.Alike σ.Permanent d'.entries d.entries → σ.store.isBranch r = false →
    r.index < σ.store.size →
    ∃ c' τ, (Step.addEntries d' (Expr.denoteEntries es) r).exec settings σ = (.ok c', τ) ∧
      σ.Extends τ ∧ Assoc.Alike τ.Permanent c'.entries c.entries
  | [], _, _, d', h, σ, hd, _, _ => by
    cases h
    exact ⟨d', σ, rfl, .refl σ, hd⟩
  | .spread _ :: _, _, _, _, h, _, _, _, _ => by cases h
  | .pair key value :: es, d, _, d', h, σ, hd, hr, hlt => by
    simp only [Expr.constantEntries?, Option.bind_eq_bind, Option.bind_eq_some_iff] at h
    obtain ⟨x, hx, h⟩ := h
    split at h
    · rename_i k
      obtain ⟨w, hw, h⟩ := Option.bind_eq_some_iff.1 h
      obtain ⟨a, τ, hkey, hτ, ha⟩ := makes_constant key hx hr hlt
      have hr' := (hτ.isBranch hlt).trans hr
      have hlt' := Nat.lt_of_lt_of_le hlt hτ.size_le
      obtain ⟨b, υ, hvalue, hυ, hb⟩ := makes_constant value hw hr' hlt'
      -- the mark that the entry would lose is not there
      have hclear := hb.extends_clearSpread
      have hall := hτ.trans (hυ.trans hclear)
      have hentry : Assoc.Alike (Session.Permanent { υ with store := υ.store.clearSpread b })
          (d'.insert k b).entries (d.insert k w).entries :=
        Assoc.Alike.insert (List.Forall₂.imp (fun _ _ he => ⟨he.1, he.2.mono hall⟩) hd) k
          (hb.mono hclear)
      obtain ⟨c', ψ, hes, hψ, hc'⟩ := addEntries_constants es h hentry
        ((hall.isBranch hlt).trans hr) (Nat.lt_of_lt_of_le hlt hall.size_le)
      refine ⟨c', ψ, ?_, hall.trans hψ, hc'⟩
      have hkey' : (key.lift key.denote r).exec settings σ = (.ok a, τ) := hkey
      have hvalue' : (value.lift value.denote r).exec settings τ = (.ok b, υ) := hvalue
      have hdata : τ.store.data a = .scalar (.string k) := (ha.holds (.refl τ)).data_eq
      rw [Expr.denoteEntries, Expr.denoteEntry, Step.addEntries, Eval.exec_bind, Step.Entry.addTo]
      simp only [Eval.exec_bind, hkey', Eval.exec_read, hdata, hvalue',
        Eval.exec_change, Eval.exec_pure]
      exact hes
    · cases h

end

end

end DocSelect
