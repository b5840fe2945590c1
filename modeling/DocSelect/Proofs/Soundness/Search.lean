import DocSelect.Proofs.Soundness.Step

/-!
# Searches

A search keeps a session sound whatever its predicate does, by induction on the levels that it may
go down. That it comes to an end is another matter: it reads the parts of a node after the predicate
has been there. If the predicate leaves the data of nodes alone, these are the parts that the node
had when the search began, so the search ends because no path in the store goes down without end.
-/
namespace DocSelect.Step

variable {w : Concern} {settings : Settings} {f : Step} {σ σ₀ : Session}

namespace Runs

theorem holdsOn (hf : Runs w settings f) (hσ : σ.Sound w) {r : Ref} (hr : σ.store.Known r) :
    Eval.Runs w settings (holdsOn f r) σ fun _ _ => True := by
  refine (hf r σ hσ hr).orMiss.bind fun result τ hτ _ _ => ?_
  cases result with
  | none => exact .pure hτ trivial
  | some result => exact (Eval.Runs.ask hτ _).mono fun _ _ _ _ => trivial

end Runs

-- ---------------------------------------------------------------------------
-- Sound sessions
-- ---------------------------------------------------------------------------

theorem keeps_searchNodes (hf : Runs w settings f) {limit : Nat} {below : Ref → Eval (List Ref)}
    (hb : ∀ r τ, τ.Sound w → (below r).Keeps w (settings.upTo limit) τ fun rs υ =>
      ∀ c ∈ rs, υ.store.Fit w c)
    (hσ : σ.Sound w) {refs : List Ref} (hrefs : ∀ r ∈ refs, σ.store.Fit w r) :
    (searchNodes f below refs).Keeps w (settings.upTo limit) σ fun rs τ => ∀ c ∈
      rs, τ.store.Fit w c := by
  induction refs generalizing σ with
  | nil => exact .pure hσ fun _ hc => absurd hc List.not_mem_nil
  | cons r rest ih =>
    have hr := hrefs r List.mem_cons_self
    refine ((hf.holdsOn hσ hr.known).keeps limit).bind fun found τ _ hτ hon _ => ?_
    refine (hb r τ hτ).bind fun inside υ _ hυ hon' hinside => ?_
    have hrest := ih hυ fun q hq => (hon.trans hon').fit (hrefs q (List.mem_cons_of_mem _ hq))
    refine hrest.bind fun rs ρ _ hρ hon'' hrs => .pure hρ fun c hc => ?_
    rcases List.mem_append.1 hc with hc | hc
    · rcases List.mem_append.1 hc with hc | hc
      · cases found
        · exact absurd hc List.not_mem_nil
        · rw [List.mem_singleton.1 hc]
          exact ((hon.trans hon').trans hon'').fit hr
      · exact hon''.fit (hinside c hc)
    · exact hrs c hc

theorem keeps_searchBelow (hf : Runs w settings f) (limit levels : Nat) (r : Ref)
    (hσ : σ.Sound w) :
    (searchBelow f levels r).Keeps w (settings.upTo limit) σ fun rs τ => ∀ c ∈
      rs, τ.store.Fit w c := by
  induction levels generalizing r σ with
  | zero =>
    unfold searchBelow
    refine .read hσ ?_
    split
    · exact .pure hσ fun _ hc => absurd hc List.not_mem_nil
    · exact .readSettings hσ (.throw hσ _)
  | succ levels ih =>
    unfold searchBelow
    exact .read hσ (keeps_searchNodes hf (fun r _ hτ => ih r hτ) hσ hσ.store.child_fit)

-- ---------------------------------------------------------------------------
-- Coming to an end
-- ---------------------------------------------------------------------------

theorem sound_later {α : Type} {x : Eval α} {result : Except EvalError α} {τ : Session}
    {Q : α → Session → Prop} (hx : x.Keeps .ending settings σ Q)
    (hl : Eval.Leads settings Session.Later x) (h : x.exec settings σ = (result, τ)) :
    τ.Sound .ending ∧ σ.Later τ := by
  have hleft := (hx fun hw => absurd hw (by decide)).left
  have hlater := hl σ
  rw [h] at hleft hlater
  exact ⟨hleft, hlater⟩

section
variable (hf : Runs .ending settings f)
  (hlater : ∀ limit, Leads (settings.upTo limit) Session.Later f)
include hf hlater

/-- One node after the other: the predicate and the search below a node leave the data of nodes
alone, so the search below the next one ends as well. -/
theorem ends_searchNodes {refs : List Ref} (hrefs : ∀ r ∈ refs, σ₀.store.Known r)
    (hbelow : ∀ r ∈ refs, ∀ σ, σ.Sound .ending → σ₀.Later σ →
      Eval.Ends settings (fun levels => searchBelow f levels r) σ)
    (hσ : σ.Sound .ending) (h₀ : σ₀.Later σ) :
    Eval.Ends settings (fun levels => searchNodes f (searchBelow f levels) refs) σ := by
  induction refs generalizing σ with
  | nil => exact .of_exec (fun _ _ => rfl) fun _ h => by cases h
  | cons r rest ih =>
    have hr := hrefs r List.mem_cons_self
    have hholds := hf.holdsOn hσ (Nat.lt_of_lt_of_le hr h₀.size_le)
    refine Eval.Ends.bind (x := fun _ => holdsOn f r) (hholds.ends rfl) ?_
    rintro found τ ⟨limit, -, h⟩
    obtain ⟨hτ, h₁⟩ := sound_later (hholds.keeps limit)
      (Leads.holdsOn Session.Later.tolerant.lenient (hlater limit) r) h
    have h₁ := h₀.trans h₁
    refine Eval.Ends.bind (hbelow r List.mem_cons_self τ hτ h₁) ?_
    rintro inside υ ⟨limit, levels, h⟩
    obtain ⟨hυ, h₂⟩ := sound_later (keeps_searchBelow hf limit levels r hτ)
      (Leads.searchBelow Session.Later.tolerant.lenient (hlater limit) levels r) h
    have hrest := ih (fun q hq => hrefs q (List.mem_cons_of_mem _ hq))
      (fun q hq => hbelow q (List.mem_cons_of_mem _ hq)) hυ (h₁.trans h₂)
    exact hrest.bind fun rs _ _ => .of_exec (fun _ _ => rfl) fun _ h => by cases h

theorem ends_searchBelow (hσ₀ : σ₀.Sound .ending) {r : Ref} (hr : σ₀.store.Known r)
    (hσ : σ.Sound .ending) (h₀ : σ₀.Later σ) :
    Eval.Ends settings (fun levels => searchBelow f levels r) σ := by
  induction hσ₀.store.grounded r generalizing σ with
  | intro r hacc ih =>
    have hdata : σ.store.data r = σ₀.store.data r := (h₀.node r hr).data
    have hparts : ∀ c ∈ (σ₀.store.data r).children, σ₀.store.Known c :=
      fun c hc => hσ₀.store.part_known hc
    have hnodes := ends_searchNodes hf hlater hparts
      (fun c hc τ hτ h => ih c hc (hparts c hc) hτ h) hσ h₀
    obtain ⟨n, result, τ, he, h⟩ := hnodes
    refine ⟨n + 1, result, τ, he, fun limit levels hl hn => ?_⟩
    obtain ⟨levels, rfl⟩ : ∃ k, levels = k + 1 := ⟨levels - 1, by omega⟩
    rw [← hdata] at h
    exact h limit levels (by omega) (by omega)

end

/-- A search keeps a session sound. It also ends, if its predicate leaves the data of nodes
alone. -/
theorem Runs.search (hf : Runs w settings f)
    (hlater : w = .ending → ∀ limit, Leads (settings.upTo limit) Session.Later f) :
    Runs w settings (search f) := by
  intro subject σ hσ hsub
  refine ⟨fun limit => .readSettings hσ ?_, fun hw => ?_⟩
  · exact (keeps_searchBelow hf limit limit subject hσ).bind fun rs τ _ hτ _ hrs =>
      (Eval.Runs.new (d := .slice rs) hτ hrs).keeps limit
  · subst hw
    have hbelow := ends_searchBelow hf (hlater rfl) hσ hsub hσ (.refl σ)
    have hends := hbelow.bind (f := fun _ rs => Eval.new (.slice rs)) fun rs τ _ =>
      .of_exec (fun _ _ => rfl) fun _ h => by cases h
    obtain ⟨n, result, τ, he, h⟩ := hends
    exact ⟨n, result, τ, he, fun limit _ hl _ => h limit limit hl hl⟩

end DocSelect.Step
