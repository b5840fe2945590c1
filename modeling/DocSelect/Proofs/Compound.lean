import DocSelect.Proofs.Compound.Matching
import DocSelect.Proofs.Listing
import DocSelect.Proofs.Quiet

/-!
# Compound assignments

A compound assignment finds its target once, and combines what is there with the value. The plain
assignment of the target combined with the value finds it twice. Both come to the same where the
second search finds what the first one found and leaves no other marks.

Where the target is a branch, the value is evaluated for each of its elements as the subject, so
that the target is another one there: it is the element that a plain assignment has to name.
-/
namespace DocSelect

variable {settings : Settings} {σ τ υ : Session} {m l : Pairing} {e e' t v : Expr}
  {op : BinaryOp} {a b r q subject : Ref} {w : Concern}

/-- Where the target is found, it is one node; looking for it once more finds one with the same
content, and leaves no other marks. -/
def Session.Steady (settings : Settings) (σ : Session) (t : Expr) (r : Ref) : Prop :=
  ∀ a τ, evaluate settings t r (σ.ready t) = (.ok a, τ) → τ.store.isBranch a = false ∧
    ∃ a' τ', evaluate settings t r τ = (.ok a', τ') ∧ τ'.store.isBranch a' = false ∧
      τ'.store.content a' = τ.store.content a ∧
      ∀ q, τ.store.Known q → (τ.store.marks q).Alike (τ'.store.marks q)

def Session.Branching (settings : Settings) (σ : Session) (t : Expr) (r : Ref) : Prop :=
  ∀ a τ, evaluate settings t r (σ.ready t) = (.ok a, τ) → τ.store.isBranch a = true

/-- Outcomes that cannot be told apart by what a result holds, by the cause of an error, by the
variables or by the nodes that were there. -/
structure Session.Indistinct (σ : Session) (x y : Except EvalError Ref × Session) : Prop where
  result :
    (x.1.map fun r => (x.2.store.content r, x.2.store.isBranch r)).mapError EvalError.rootCause =
    (y.1.map fun r => (y.2.store.content r, y.2.store.isBranch r)).mapError EvalError.rootCause
  content {r : Ref} : σ.store.Known r → x.2.store.content r = y.2.store.content r
  marks {r : Ref} : σ.store.Known r → (x.2.store.marks r).Alike (y.2.store.marks r)
  names : x.2.bindings.keys = y.2.bindings.keys
  values (name : String) : (x.2.bindings.find? name).map x.2.store.content =
    (y.2.bindings.find? name).map y.2.store.content

theorem Session.Indistinct.symm {x y : Except EvalError Ref × Session} (h : σ.Indistinct x y) :
    σ.Indistinct y x where
  result := h.result.symm
  content hr := (h.content hr).symm
  marks hr := (h.marks hr).symm
  names := h.names.symm
  values name := (h.values name).symm

theorem Session.Indistinct.trans {x y z : Except EvalError Ref × Session} (h : σ.Indistinct x y)
    (k : σ.Indistinct y z) : σ.Indistinct x z where
  result := h.result.trans k.result
  content hr := (h.content hr).trans (k.content hr)
  marks hr := (h.marks hr).trans (k.marks hr)
  names := h.names.trans k.names
  values name := (h.values name).trans (k.values name)

theorem Session.Indistinct.not_of_error {x y : Except EvalError Ref × Session}
    (hx : x.1.toOption.isSome) (hy : y.1.toOption = none) : ¬ σ.Indistinct x y := by
  rintro ⟨h, -, -, -, -⟩
  obtain ⟨x | a, τ⟩ := x
  · exact Bool.false_ne_true hx
  obtain ⟨y | b, υ⟩ := y
  · exact nomatch h
  · exact nomatch hy

theorem Matches.indistinct {x y : Except EvalError Ref × Session} (h : Matches m (fun l => l) x y)
    (hm : ∀ r, σ.store.Known r → m r r) : σ.Indistinct x y := by
  obtain ⟨l, hl, hsession, hresult⟩ := h
  refine ⟨?_, fun hr => hsession.store.content_eq (hl _ _ (hm _ hr)),
    fun hr => hsession.store.marks (hl _ _ (hm _ hr)), Assoc.Alike.keys_eq hsession.bindings,
      fun name => ?_⟩
  · obtain ⟨x | a, σ⟩ := x <;> obtain ⟨y | b, τ⟩ := y <;>
      simp only [Except.mapError] at hresult
    · generalize hx : x.rootCause = c, hy : y.rootCause = d at hresult
      cases hresult
      simp only [Except.map, Except.mapError, hx, hy]
    · cases hresult
    · cases hresult
    · cases hresult with
      | ok hab =>
        exact congrArg Except.ok (Prod.ext (hsession.store.content_eq hab)
          (hsession.store.isBranch_eq hab))
  · rcases Assoc.Alike.find? hsession.bindings name with ⟨ha, hb⟩ | ⟨a, b, ha, hb, hab⟩
    · rw [Dict.find?, Dict.find?, ha, hb]
      rfl
    · rw [Dict.find?, Dict.find?, ha, hb]
      exact congrArg some (hsession.store.content_eq hab)

-- ---------------------------------------------------------------------------
-- One node
-- ---------------------------------------------------------------------------

theorem Store.operate?_of_content_eq {s : Store} {a b c : Ref} (hop : op = .add ∨ op = .subtract)
    (ha : s.Grounded a) (hb : s.Grounded b) (h : s.content a = s.content b) :
    s.operate? op a c = s.operate? op b c := by
  rw [ha.content_eq, hb.content_eq] at h
  have harith (x : Arithmetic) : s.arithmetic? x a c = s.arithmetic? x b c := by
    unfold arithmetic?
    generalize s.data a = d, s.data b = d' at h ⊢
    rcases d with y | items | entries <;> rcases d' with z | items' | entries' <;>
      simp only [Data.contentWith, reduceCtorEq, Content.scalar.injEq] at h
    · subst h
      rfl
    · rfl
    · rfl
  rcases hop with rfl | rfl <;> simp only [operate?, harith]

theorem exec_operate_congr {c : Ref} (h : σ.store.operate? op a c = σ.store.operate? op b c) :
    (Step.operate op a c).exec settings σ = (Step.operate op b c).exec settings σ := by
  rw [Step.operate, Step.operate, Eval.exec_bind, Eval.exec_bind, Eval.exec_read, Eval.exec_read, h]

section
variable (hs : settings.Regular) (hop : op = .add ∨ op = .subtract) (ht : t.assignFree = true)
  (hv : v.assignFree = true)
include hs hop ht hv

theorem matches_value {p p' p₂ : Ref} {υ₂ : Session} (hτ : τ.Sound .soundness)
    (h : σ.Alike m τ) (hab : m a b) (hp : m p p') (hb : τ.store.Single b)
    (hagain : evaluate settings t a σ = (.ok p₂, υ₂))
    (hsingle : υ₂.store.isBranch p₂ = false)
    (hcontent : υ₂.store.content p₂ = σ.store.content p)
    (hmarks : ∀ q, σ.store.Known q → (σ.store.marks q).Alike (υ₂.store.marks q)) :
    Matches m (fun l => l) ((v.step a >>= Step.operate op p).exec settings σ)
      (evaluate settings (.binary op t v) b τ) := by
  obtain ⟨k, hk, hfound, hresult⟩ := evaluate_alike hs.respectful t hab h
  have hlater := evaluate_leads_of_assignFree Session.Later.tolerant hs.keeping.gentle ht b τ
  rcases hright : evaluate settings t b τ with ⟨y | p₂', ψ⟩ <;>
    rw [hagain, hright] at hresult hfound <;>
    cases hresult
  rename_i hp₂
  rw [hright] at hlater
  obtain ⟨hψ, -, hresult⟩ := hτ.after hs.keeping hb.known hright
  have halike : σ.Alike m ψ := h.later_right hlater fun {x y} hxy =>
    (hmarks x (h.store.lt hxy).1).trans (hfound.store.marks (hk _ _ hxy))
  have hform : (OperandForm.binary op v).Strict := by
    rcases hop with rfl | rfl <;> exact trivial
  have hexec : ((Expr.binary op t v).denote b).exec settings τ =
      (v.step b >>= Step.operate op p₂').exec settings ψ := by
    have hexec := OperandForm.exec_denote settings _ hform t b τ
    rw [OperandForm.prepared, hright] at hexec
    · refine hexec.trans ((OperandForm.exec_applyAll_single ?_).trans ?_)
      · exact (hfound.store.isBranch_eq hp₂).symm.trans hsingle
      · rcases hop with rfl | rfl <;> rfl
    · rintro _ _ ⟨⟩
  refine Matches.congr (.refl _) (.evaluate _ hb.not_branch) ?_
  rw [hexec]
  refine .bind (.of_alike (v.respectful_lift hs.respectful m a b hab) halike) ?_
  intro l c c' υ ρ hl _ hvalue hυ hc
  have hlater' := evaluate_leads_of_assignFree Session.Later.tolerant hs.keeping.gentle hv b ψ
  have hvalue : evaluate settings v b ψ = (.ok c', ρ) := hvalue
  rw [hvalue] at hlater'
  obtain ⟨hρ, -, -⟩ := hψ.after hs.keeping ((halike.store.lt hab).2) hvalue
  -- the node that was found first holds what the one found again holds
  have hsame : ρ.store.content p' = ρ.store.content p₂' := by
    rw [(hlater.trans hlater').content_eq hτ (h.store.lt hp).2,
      hlater'.content_eq hψ (hresult p₂' rfl),
      ← hfound.store.content_eq hp₂, hcontent, h.store.content_eq hp]
  have hoperate : (Step.operate op p₂' c').exec settings ρ =
      (Step.operate op p' c').exec settings ρ :=
    exec_operate_congr (Store.operate?_of_content_eq hop (hρ.store.grounded _)
      (hρ.store.grounded _) hsame.symm)
  rw [hoperate]
  exact .of_alike (Step.Respectful.operate op (hl _ _ hp) hc) hυ

theorem Session.Steady.matches (hσ : σ.Sound .soundness) (hτ : τ.Sound .soundness)
    (h : σ.Alike m τ) (hab : m a b) (ha : σ.store.Single a) (hsteady : σ.Steady settings t a) :
    Matches m (fun l => l) (evaluate settings (.assign t (some op) v) a σ)
      (evaluate settings (.assign t none (.binary op t v)) b τ) := by
  have hb := h.store.single hab ha
  obtain ⟨l, hl, hready⟩ := h.ready t
  obtain ⟨hσ', hon⟩ := hσ.ready t
  obtain ⟨hτ', hon'⟩ := hτ.ready t
  obtain ⟨k, hk, hfound, hresult⟩ := evaluate_alike hs.respectful t (hl _ _ hab) hready
  have hx := OperandForm.exec_denote settings (.assign (some op) v) trivial t a σ
  have hy := OperandForm.exec_denote settings (.assign none (.binary op t v)) trivial t b τ
  refine .evaluate ha.not_branch hb.not_branch ?_
  simp only [OperandForm.on, OperandForm.prepared] at hx hy
  rw [hx, hy]
  rcases hleft : evaluate settings t a (σ.ready t) with ⟨x | p, υ⟩ <;>
    rcases hright : evaluate settings t b (τ.ready t) with ⟨y | p', ψ⟩ <;>
    rw [hleft, hright] at hfound hresult <;> cases hresult
  · exact .error (hl.trans hk) hfound rfl
  rename_i hp
  obtain ⟨hsingle, p₂, υ₂, hagain, hsingle₂, hcontent, hmarks⟩ := hsteady p υ hleft
  obtain ⟨hψ, hon'', -⟩ := hτ'.after hs.keeping (hon'.known hb.known) hright
  have hvalue := matches_value hs hop ht hv hψ hfound (hk _ _ (hl _ _ hab)) hp
    ((hon'.trans hon'').single hb) hagain hsingle₂ hcontent hmarks
  dsimp only
  rw [OperandForm.exec_applyAll_single hsingle,
    OperandForm.exec_applyAll_single ((hfound.store.isBranch_eq hp).symm.trans hsingle)]
  have hwrites : OperandForm.apply (.assign (some op) v) p a =
      (v.step a >>= Step.operate op p) >>= Step.writeInto p none := by
    simp only [OperandForm.apply, writeInto_some, bind_assoc]
  rw [hwrites]
  refine .weaken (hl.trans hk) (.bind hvalue fun i n n' ρ ρ' hi _ _ hρ hn => ?_)
  exact .of_alike (Step.Respectful.writeInto none (hi _ _ hp) hn) hρ

end

/-- A target that marks nothing and makes no spread is found again as it was, where no node is a
spread. -/
theorem Session.Steady.of_free (files : FileSystem) (environment : Environment) (limit : Nat)
    (ht : t.assignFree = true) (hignore : t.ignoreFree = true) (hspread : t.spreadFree = true)
    (hσ : σ.Sound .soundness) (ha : σ.store.Known a) (hwhole : σ.store.Bears Marks.Whole)
    (hsingle : ∀ p τ, evaluate ⟨Registry.builtins files, environment, limit⟩ t a
      (σ.ready t) = (.ok p, τ) →
      τ.store.isBranch p = false) :
    σ.Steady ⟨Registry.builtins files, environment, limit⟩ t a := by
  intro p τ hfound
  have hs := Settings.regular_builtins files environment limit
  obtain ⟨hready, hon⟩ := hσ.ready t
  have hwhole₁ : (σ.ready t).store.Bears Marks.Whole := by
    unfold Session.ready Session.withBound
    split
    · split
      · exact hwhole
      · exact hwhole.add rfl
    · exact hwhole
  have hextends₁ := evaluate_extends files environment limit ht hignore a fun r _ => hwhole₁ r
  have hwhole₂ := evaluate_leads_of_permits hs.whole hspread a _ hwhole₁
  rw [hfound] at hextends₁ hwhole₂
  have hextends₂ := evaluate_extends files environment limit ht hignore a fun r _ => hwhole₂ r
  have halike := hready.alike_self.later_right hextends₁.later fun {x y} hxy => by
    obtain ⟨rfl, hx⟩ := hxy
    rw [hextends₁.marks hx]
    exact ⟨rfl, rfl, rfl⟩
  obtain ⟨l, p', τ', -, hagain, hends, hp⟩ :=
    halike.evaluate_ok hs.respectful ⟨rfl, hon.known ha⟩ hfound
  rw [hagain] at hextends₂
  refine ⟨hsingle p τ hfound, p', τ', hagain, ?_, (hends.store.content_eq hp).symm,
    fun q hq => ?_⟩
  · rw [← hends.store.isBranch_eq hp]
    exact hsingle p τ hfound
  · rw [hextends₂.marks hq]
    exact ⟨rfl, rfl, rfl⟩

-- ---------------------------------------------------------------------------
-- The elements of a branch
-- ---------------------------------------------------------------------------

/-- Two loops over the same nodes, with an invariant of all sessions between two rounds. -/
theorem Agree.collect_both {f g : Step} {items : List Ref} {I : Session → Prop}
    (hstep : ∀ r ∈ items, ∀ σ, I σ →
      Agree ((f r).exec settings σ) ((g r).exec settings σ))
    (hkeep : ∀ r ∈ items, ∀ σ q τ, I σ → (f r).exec settings σ = (.ok q, τ) → I τ)
    (hσ : I σ) :
    Agree ((Step.collect f items).exec settings σ) ((Step.collect g items).exec settings σ) := by
  induction items generalizing σ with
  | nil => exact refl _
  | cons r items ih =>
    refine (hstep r List.mem_cons_self σ hσ).bind fun q τ hq _ =>
      bind_right fun contributed υ h => ?_
    rw [Eval.exec_ask] at h
    obtain rfl : τ = υ := (Prod.mk.inj h).2
    refine bind (ih (fun c hc => hstep c (List.mem_cons_of_mem _ hc))
      (fun c hc => hkeep c (List.mem_cons_of_mem _ hc)) (hkeep r List.mem_cons_self σ q τ hσ hq))
      fun _ _ _ _ => refl _

theorem agree_element (hop : op = .add ∨ op = .subtract) (ha : σ.store.isBranch a = false) :
    Agree (((OperandForm.assign (some op) v).apply a a).exec settings σ)
      (((OperandForm.assign none (.binary op (.var "this") v)).apply a a).exec settings σ) := by
  have hform : (OperandForm.binary op v).Strict := by
    rcases hop with rfl | rfl <;> exact trivial
  have hexec : ((Expr.binary op (.var "this") v).denote a).exec settings σ =
      (v.step a >>= Step.operate op a).exec settings σ := by
    have hexec := OperandForm.exec_denote settings _ hform (.var "this") a σ
    rw [OperandForm.prepared, OperandForm.evaluate_this ha] at hexec
    · refine hexec.trans ((OperandForm.exec_applyAll_single ha).trans ?_)
      rcases hop with rfl | rfl <;> rfl
    · rintro _ _ ⟨⟩
  have hwrites : (OperandForm.assign (some op) v).apply a a =
      (v.step a >>= Step.operate op a) >>= Step.writeInto a none := by
    simp only [OperandForm.apply, writeInto_some, bind_assoc]
  rw [hwrites]
  refine .bind ((Agree.of_eq hexec.symm).trans ?_) fun _ _ _ _ => .refl _
  exact (Agree.evaluate (.binary op (.var "this") v) ha).symm

theorem Session.Branching.agree (hs : settings.Regular) (hop : op = .add ∨ op = .subtract)
    (hσ : σ.Sound .soundness) (ha : σ.store.Single a) (hbranching : σ.Branching settings t a) :
    Agree (evaluate settings (.assign t (some op) v) a σ)
      (evaluate settings (.assign t none (.binary op (.var "this") v)) a σ) := by
  have hx := OperandForm.exec_denote settings (.assign (some op) v) trivial t a σ
  have hy :=
    OperandForm.exec_denote settings (.assign none (.binary op (.var "this") v)) trivial t a σ
  simp only [OperandForm.on, OperandForm.prepared] at hx hy
  refine (Agree.evaluate _ ha.not_branch).trans (.trans ?_ (Agree.evaluate _ ha.not_branch).symm)
  rw [hx, hy]
  obtain ⟨hready, hon⟩ := hσ.ready t
  rcases hfound : evaluate settings t a (σ.ready t) with ⟨x | p, υ⟩
  · exact .refl _
  obtain ⟨hυ, -, hresult⟩ := hready.after hs.keeping (hon.known ha.known) hfound
  have hb := hbranching p υ hfound
  dsimp only
  rw [OperandForm.applyAll, OperandForm.applyAll, Eval.exec_bind, Eval.exec_bind, Eval.exec_read]
  simp only [hb, if_true]
  refine .bind_right fun items ψ hask => ?_
  rw [Eval.exec_ask] at hask
  obtain ⟨hitems, rfl⟩ := Prod.mk.inj hask
  have hsingle (r : Ref) (hr : r ∈ items) : υ.store.Single r :=
    hυ.store.element_single hb (Store.part_of_items? (eq_ok_of_mapError hitems) hr)
  refine .bind (Agree.collect_both (I := fun ρ => ρ.Sound .soundness ∧ ∀ r ∈ items,
    ρ.store.Single r)
    (fun r hr ρ hρ => ?_) (fun r hr ρ q ρ' hρ hround => ?_)
      ⟨hυ, hsingle⟩) fun _ _ _ _ => .refl _
  · exact agree_element hop (hρ.2 r hr).not_branch
  · have hround' : Eval.Runs .soundness settings ((OperandForm.assign (some op) v).apply r r) ρ
        fun c τ => τ.store.Known c :=
      (v.runs_lift hs.keeping (v.all_of_forall fun _ => rfl) r ρ hρ.1 (hρ.2 r hr).known).bind
        fun c τ hτ hon hc => Step.Runs.writeInto hτ (hon.single (hρ.2 r hr)) (some op) hc
    obtain ⟨-, hleft, hon, -⟩ : Eval.Outcome .soundness settings
        ((OperandForm.assign (some op) v).apply r r) ρ fun c τ => τ.store.Known c :=
      hround'.keeps settings.searchLimit fun hw => absurd hw (by decide)
    rw [hround] at hleft hon
    exact ⟨hleft, fun c hc => hon.single (hρ.2 c hc)⟩

theorem Session.Branching.alike (hs : settings.Regular) (h : σ.Alike m τ) (hab : m a b)
    (hbranching : σ.Branching settings t a) : τ.Branching settings t b := by
  intro p' ψ hright
  obtain ⟨l, hl, hready⟩ := h.ready t
  obtain ⟨k, -, hfound, hresult⟩ := evaluate_alike hs.respectful t (hl _ _ hab) hready
  rcases hleft : evaluate settings t a (σ.ready t) with ⟨x | p, υ⟩ <;>
    rw [hleft, hright] at hfound hresult <;> cases hresult
  rename_i hp
  exact (hfound.store.isBranch_eq hp).symm.trans (hbranching p υ hleft)

-- ---------------------------------------------------------------------------
-- All subjects
-- ---------------------------------------------------------------------------

/-- In every session that a program meets, a compound assignment cannot be told apart from the plain
assignment of the target combined with the value, if each time the target is one node that is found
again as it was; where each time it is a branch, what it cannot be told apart from is the
assignment, to each element, of the element combined with the value. -/
theorem compound_assignment (files : FileSystem) (environment : Environment) (limit : Nat)
    (hσ : σ.Met ⟨Registry.builtins files, environment, limit⟩) (hsub : σ.store.Known subject)
    (ht : t.assignFree = true) (hv : v.assignFree = true) (hop : op = .add ∨ op = .subtract) :
    let settings : Settings := ⟨Registry.builtins files, environment, limit⟩
    ((∀ ρ r, σ.Turn settings (.assign t (some op) v) subject ρ r →
        ρ.Steady settings t r) →
      σ.Indistinct (evaluate settings (.assign t (some op) v) subject σ)
        (evaluate settings (.assign t none (.binary op t v)) subject σ)) ∧
    ((∀ ρ r, σ.Turn settings (.assign t (some op) v) subject ρ r →
        ρ.Branching settings t r) →
      σ.Indistinct (evaluate settings (.assign t (some op) v) subject σ)
        (evaluate settings (.assign t none (.binary op (.var "this") v)) subject σ)) := by
  intro settings
  have hs := Settings.regular_builtins files environment limit
  have hsound := hσ.sound hs.keeping
  have hself := hsound.alike_self
  have hpair : (fun a b => a = b ∧ σ.store.Known a) subject subject := ⟨rfl, hsub⟩
  refine ⟨fun hsteady => Matches.indistinct
      (matches_of_turns hs.keeping hsound hsound hself hpair ?_)
      fun _ hr => ⟨rfl, hr⟩,
    fun hbranching => Matches.indistinct (matches_of_turns hs.keeping hsound hsound hself hpair ?_)
      fun _ hr => ⟨rfl, hr⟩⟩
  · intro l ρ ρ' r r' hturn hρ hρ' halike hr hsingle
    exact (hsteady ρ r hturn).matches hs hop ht hv hρ hρ' halike hr hsingle
  · intro l ρ ρ' r r' hturn hρ hρ' halike hr hsingle
    have hagree := ((hbranching ρ r hturn).alike hs halike hr).agree (v := v) hs hop hρ'
      (halike.store.single hr hsingle)
    exact Matches.congr (.refl _) hagree.symm
      (.of_alike ((Expr.assign t (some op) v).respectful_lift hs.respectful l r r' hr) halike)

/-- Adding two to a property, and one to each of the elements of a document. -/
theorem compound_assignment_increments :
    let settings : Settings := ⟨Registry.builtins FileSystem.bare, fun _ => none, 10⟩
    let map := Session.start (.map [("a", .int 1)]) []
    let list := Session.start (.slice [.int 1, .int 2]) []
    let a : Expr := .property "a"
    let elements : Expr := .branch []
    let increment := evaluate settings (.assign a (some .add) (.integer 2)) map.1 map.2
    let increments := evaluate settings (.assign elements (some .add) (.integer 1)) list.1 list.2
    (Json.compact (increment.2.store.content map.1) = "\x7b\"a\":3\x7d".toList ∧
      map.2.Indistinct increment
        (evaluate settings (.assign a none (.binary .add a (.integer 2))) map.1 map.2)) ∧
    Json.compact (increments.2.store.content list.1) = "[2,3]".toList ∧
      list.2.Indistinct increments (evaluate settings
        (.assign elements none (.binary .add (.var "this") (.integer 1))) list.1 list.2) := by
  intro settings map list a elements increment increments
  have hmap := Session.Plain.start (.map [("a", .int 1)]) []
  have hlist := Session.Plain.start (.slice [.int 1, .int 2]) []
  have hmet (c : Content) : (Session.start c []).2.Met settings := .reachable (.start settings c [])
  have hs := Settings.keeping_builtins .soundness FileSystem.bare (fun _ => none) 10
  have hknown : map.2.store.Known map.1 ∧ list.2.store.Known list.1 :=
    ⟨hmap.forest.root List.mem_cons_self, hlist.forest.root List.mem_cons_self⟩
  have hfound : evaluate settings a map.1 map.2 = (.ok ⟨0⟩, _) :=
    evaluate_of_toOption (by decide +kernel)
  have hfounds : evaluate settings elements list.1 list.2 = (.ok ⟨3⟩, _) :=
    evaluate_of_toOption (by decide +kernel)
  have hsingle : (evaluate settings a map.1 map.2).2.store.isBranch ⟨0⟩ = false := by
    decide +kernel
  have hbranch : (evaluate settings elements list.1 list.2).2.store.isBranch ⟨3⟩ = true := by
    decide +kernel
  refine ⟨⟨by decide +kernel, ?_⟩, by decide +kernel, ?_⟩
  · refine (compound_assignment _ _ _ (hmet _) hknown.1 rfl rfl (.inl rfl)).1 fun ρ r hturn => ?_
    obtain ⟨rfl, rfl⟩ := hturn.eq_of_single (hmap.unmarked.isBranch _)
    refine .of_free _ _ _ rfl rfl rfl ((hmet _).sound hs) hknown.1 hmap.unmarked.isSpread
      fun p τ hp => ?_
    obtain ⟨hp, rfl⟩ := Prod.mk.inj (hfound.symm.trans hp)
    cases hp
    exact hsingle
  · refine (compound_assignment _ _ _ (hmet _) hknown.2 rfl rfl (.inl rfl)).2 fun ρ r hturn => ?_
    obtain ⟨rfl, rfl⟩ := hturn.eq_of_single (hlist.unmarked.isBranch _)
    intro p τ hp
    obtain ⟨hp, rfl⟩ := Prod.mk.inj (hfounds.symm.trans hp)
    cases hp
    exact hbranch

/-- The plain assignment looks for the target again: among the parts of an element where it goes
over the elements of a branch, and without what the first search has marked as ignored. -/
theorem target_found_twice :
    let settings : Settings := ⟨Registry.builtins FileSystem.bare, fun _ => none, 10⟩
    let list := Session.start (.slice [.int 1, .int 2]) []
    let elements : Expr := .branch []
    let one := Session.start (.int 1) []
    let marking : Expr :=
      .chain [.array [.chain [.branch [.var "this"], .var "this"], .call "ignore" []],
        .index (.integer 1)]
    let compound (start : Ref × Session) (t : Expr) :=
      evaluate settings (.assign t (some .add) (.integer 1)) start.1 start.2
    let plain (start : Ref × Session) (t : Expr) :=
      evaluate settings (.assign t none (.binary .add t (.integer 1))) start.1 start.2
    let text (start : Ref × Session) (x : Except EvalError Ref × Session) :=
      (x.1.toOption.map fun r => Json.compact (x.2.store.content r),
        Json.compact (x.2.store.content start.1))
    (text list (compound list elements) = (some "[2,3]".toList, "[2,3]".toList) ∧
      (plain list elements).1.toOption = none ∧
      ¬ list.2.Indistinct (compound list elements) (plain list elements)) ∧
    text one (compound one marking) = (some "2".toList, "2".toList) ∧
      (plain one marking).1.toOption = none ∧
      ¬ one.2.Indistinct (compound one marking) (plain one marking) := by
  intro settings list elements one marking compound plain text
  have hcompound : (compound list elements).1.toOption.isSome ∧
      (compound one marking).1.toOption.isSome := by
    decide +kernel
  have hplain : (plain list elements).1.toOption = none ∧
      (plain one marking).1.toOption = none := by
    decide +kernel
  exact ⟨⟨by decide +kernel, hplain.1, Session.Indistinct.not_of_error hcompound.1 hplain.1⟩,
    by decide +kernel, hplain.2, Session.Indistinct.not_of_error hcompound.2 hplain.2⟩

end DocSelect
