import DocSelect.Proofs.Compound
import DocSelect.Proofs.Frame

/-!
# Joining texts

The function that joins texts takes them as its arguments, as one slice, or as the elements of its
subject. So there are three ways of giving it a slice: as an argument, spread into arguments, and as
the subject of the call. The function tells them apart by what is left of its arguments after the
separator. Where the slice is a single text, the two readings of a single argument come to the same;
but a spread of no texts leaves nothing, and then it is the subject that is joined.
-/
namespace DocSelect

inductive TextForm where
  | argument
  | spread
  | subject

namespace TextForm

def join (separator : String) (xs : Expr) : TextForm → Expr
  | argument => .call "join" [.string separator, xs]
  | spread => .call "join" [.string separator, Expr.chained [xs, .spread]]
  | subject => Expr.chained [xs, .call "join" [.string separator]]

/-- The node that the function is called on, where `a` is the slice. -/
def target (a r : Ref) : TextForm → Ref
  | subject => a
  | _ => r

/-- The arguments after the separator, where `a` is the slice. -/
def rest (s : Store) (a : Ref) : TextForm → List Ref
  | argument => if s.isSpread a then (s.data a).children else [a]
  | spread => (s.data a).children
  | subject => []

def Reaches (texts : List String) (spreadMark : Bool) : TextForm → Prop
  | argument => spreadMark = true → texts ≠ []
  | spread => texts ≠ []
  | subject => True

end TextForm

namespace Store

def Texts (s : Store) (refs : List Ref) (texts : List String) : Prop :=
  List.Forall₂ (fun r text => s.data r = .string text) refs texts

structure TextSlice (s : Store) (a : Ref) (texts : List String) : Prop where
  not_branch : s.isBranch a = false
  items : ∃ items, s.data a = .slice items ∧ s.Texts items texts

variable {s t : Store} {a b r : Ref} {refs refs' : List Ref} {texts : List String} {m : Pairing}
  {form : TextForm}

theorem string?_eq_ok_iff {text : String} : s.string? r = .ok text ↔ s.data r = .string text := by
  rw [string?, Data.string]
  cases s.data r with
  | scalar x => cases x <;> simp [unexpected]
  | slice items => simp [unexpected]
  | map entries => simp [unexpected]

theorem items?_eq_ok_iff {items : List Ref} :
    s.items? r = .ok items ↔ s.data r = .slice items := by
  rw [items?]
  cases s.data r with
  | scalar x => simp [unexpected]
  | slice items => simp
  | map entries => simp [unexpected]

theorem TextSlice.of_reads {items : List Ref} (hbranch : s.isBranch a = false)
    (hitems : (s.items? a).toOption = some items)
    (htexts : items.map (fun r => (s.string? r).toOption) = texts.map some) :
    s.TextSlice a texts := by
  have hok {α : Type} {x : Except ValueError α} {a : α} (h : x.toOption = some a) :
      x = .ok a := by
    cases x <;> cases h
    rfl
  refine ⟨hbranch, items, items?_eq_ok_iff.1 (hok hitems), ?_⟩
  have htexts := List.forall₂_map_left_iff.1
    (List.forall₂_map_right_iff.1 (List.forall₂_eq_eq_eq ▸ htexts))
  exact htexts.imp fun r text h => string?_eq_ok_iff.1 (hok h)

-- ---------------------------------------------------------------------------
-- Texts in stores that are alike
-- ---------------------------------------------------------------------------

theorem Alike.data_string_right (h : s.Alike m t) (hab : m a b) {text : String}
    (ha : s.data a = .string text) : t.data b = .string text :=
  string?_eq_ok_iff.1 ((h.string?_eq hab).symm.trans (string?_eq_ok_iff.2 ha))

theorem Alike.texts_right (h : s.Alike m t) (hrefs : List.Forall₂ m refs refs')
    (htexts : s.Texts refs texts) : t.Texts refs' texts := by
  induction hrefs generalizing texts with
  | nil =>
    cases htexts
    exact .nil
  | cons hab _ ih =>
    cases htexts with
    | cons ha hrest => exact .cons (h.data_string_right hab ha) (ih hrest)

theorem Alike.textSlice_right (h : s.Alike m t) (hab : m a b) (ha : s.TextSlice a texts) :
    t.TextSlice b texts := by
  obtain ⟨hbranch, items, hitems, htexts⟩ := ha
  obtain ⟨items', hitems', hrefs⟩ : ∃ items', t.items? b = .ok items' ∧
      List.Forall₂ m items items' := by
    have hread := h.items? hab
    rw [items?_eq_ok_iff.2 hitems] at hread
    cases hb : t.items? b <;> rw [hb] at hread <;> cases hread
    exact ⟨_, rfl, ‹_›⟩
  exact ⟨(h.isBranch_eq hab).symm.trans hbranch, items', items?_eq_ok_iff.1 hitems',
    h.texts_right hrefs htexts⟩

-- ---------------------------------------------------------------------------
-- What the function finds to join
-- ---------------------------------------------------------------------------

theorem Texts.joinable (h : s.Texts refs texts) (place : Nat) :
    Builtin.joinable s place refs = .ok texts := by
  induction h generalizing place with
  | nil => rfl
  | cons hr _ ih =>
    rw [Builtin.joinable, hr]
    simp only [Data.string, ih, Except.map]

/-- Texts among the arguments are the parts to join, if there are any; a single one is no slice. -/
theorem Texts.joinParts (h : s.Texts refs texts) (hne : texts ≠ []) :
    Builtin.joinParts s r refs = .ok refs := by
  cases h with
  | nil => exact absurd rfl hne
  | cons hr hrest =>
    cases hrest with
    | nil =>
      rw [Builtin.joinParts, hr]
      rfl
    | cons => rfl

theorem TextSlice.passed (h : s.TextSlice a texts) :
    s.passed a = .ok (TextForm.argument.rest s a) := by
  obtain ⟨hbranch, items, hitems, -⟩ := h
  rw [Store.passed, hbranch, Bool.or_false, TextForm.rest, items?, hitems]
  split <;> rfl

theorem TextSlice.joinParts (r : Ref) (h : s.TextSlice a texts)
    (hform : form.Reaches texts (s.isSpread a)) :
    ∃ parts, Builtin.joinParts s (form.target a r) (form.rest s a) = .ok parts ∧
      s.Texts parts texts := by
  obtain ⟨-, items, hitems, htexts⟩ := h
  cases form with
  | argument =>
    rw [TextForm.rest]
    split
    · rename_i hspread
      rw [hitems]
      exact ⟨items, htexts.joinParts (hform hspread), htexts⟩
    · exact ⟨items, by rw [Builtin.joinParts, hitems], htexts⟩
  | spread =>
    rw [TextForm.rest, hitems]
    exact ⟨items, htexts.joinParts hform, htexts⟩
  | subject =>
    exact ⟨items, by rw [TextForm.rest, TextForm.target, Builtin.joinParts, items?,
      hitems], htexts⟩

theorem TextSlice.of_not_reaches (r : Ref) (h : s.TextSlice a texts)
    (hform : ¬ form.Reaches texts (s.isSpread a)) :
    texts = [] ∧ form.target a r = r ∧ form.rest s a = [] := by
  obtain ⟨-, items, hitems, htexts⟩ := h
  cases form with
  | argument =>
    obtain ⟨hspread, hnone⟩ := Classical.not_imp.1 hform
    obtain rfl := not_not.1 hnone
    cases htexts
    exact ⟨rfl, rfl, by rw [TextForm.rest, if_pos hspread, hitems, Data.children]⟩
  | spread =>
    obtain rfl := not_not.1 hform
    cases htexts
    exact ⟨rfl, rfl, by rw [TextForm.rest, hitems, Data.children]⟩
  | subject => exact absurd trivial hform

end Store

variable {settings : Settings} {σ τ υ ρ ρ' : Session} {s : Store} {e xs : Expr}
  {a b r r' subject : Ref} {m : Pairing} {separator : String} {texts : List String}
  {form : TextForm} {refs items : List Ref}

theorem exec_joinWith (separator : String) (r : Ref) (form : TextForm)
    (h : σ.store.TextSlice a texts) (hform : form.Reaches texts (σ.store.isSpread a)) :
    (Eval.act (Builtin.joinWith separator (form.target a r) (form.rest σ.store a))).exec
      settings σ = (Eval.new (.string (separator.intercalate texts))).exec settings σ := by
  obtain ⟨parts, hparts, htexts⟩ := h.joinParts r hform
  rw [Eval.exec_act, Builtin.joinWith, Action.exec_bind, Action.exec_ask, hparts]
  simp only [Except.mapError, Action.exec_bind, Action.exec_read, htexts.joinable]
  rfl

-- ---------------------------------------------------------------------------
-- Calls
-- ---------------------------------------------------------------------------

def Session.separated (σ : Session) (separator : String) : Session :=
  { σ with store := (σ.store.new (.string separator)).2 }

theorem Store.call_join (h : s.data a = .string separator) (r : Ref) (refs : List Ref) :
    (Builtin.join.call r (a :: refs)).exec s = (Builtin.joinWith separator r refs).exec s := by
  have hrun : Builtin.join.call r (a :: refs) = Builtin.join.run r (a :: refs) :=
    if_pos (by simp [Builtin.join, Function.variadic, Arity.accepts])
  have hbody : Builtin.join.run r (a :: refs) =
      Action.ask (·.string? a) >>= fun separator => Builtin.joinWith separator r refs := rfl
  rw [hrun, hbody, Action.exec_bind, Action.exec_ask, Store.string?_eq_ok_iff.2 h]
  rfl

theorem agree_apply (f : Function) (name : String) (arguments : List Ref) (r : Ref) :
    Agree ((f.apply name arguments r).exec settings σ)
      ((Eval.act (f.call r arguments)).exec settings σ) := by
  rw [Function.apply, Eval.exec_tryCatch, Eval.exec_act]
  rcases (f.call r arguments).exec σ.store with ⟨x | q, s⟩
  · exact ⟨rfl, rfl⟩
  · exact .refl _

theorem exec_gather_single (heval : evaluate settings e r σ = (.ok a, τ))
    (ha : τ.store.passed a = .ok refs) :
    (Step.gather Store.passed ([e].map Expr.step) r).exec settings σ = (.ok refs, τ) := by
  rw [List.map_singleton, Step.exec_gather_cons, ← evaluate_eq_exec, heval]
  simp only [ha, Step.gather, Eval.exec_pure, List.append_nil]

/-- A call agrees with what is left to do when its arguments are there, as long as they leave the
separator alone. -/
theorem agree_call_join (separator : String) (es : List Expr)
    (hjoin : settings.functions.find? "join" = some Builtin.join) (hr : σ.store.isBranch r = false)
    (hgather : (Step.gather Store.passed (es.map Expr.step) r).exec settings
      (σ.separated separator) = (.ok refs, τ)) (hlater : (σ.separated separator).Later τ) :
    Agree (evaluate settings (.call "join" (.string separator :: es)) r σ)
      ((Eval.act (Builtin.joinWith separator r refs)).exec settings τ) := by
  let first := (σ.store.new (.string separator)).1
  have hstring : evaluate settings (.string separator) r σ = (.ok first, σ.separated separator) :=
    evaluate_ok _ hr rfl
  have hnode : (σ.separated separator).store.node first = ⟨.string separator, Marks.none⟩ :=
    σ.store.node_add_self _
  have hpassed : (σ.separated separator).store.passed first = .ok [first] := by
    simp only [Store.passed, Store.isSpread, Store.isBranch, Store.marks, hnode]
    rfl
  have hkept : τ.store.data first = .string separator :=
    (hlater.node first (σ.store.known_add_self _)).data.trans (congrArg Node.data hnode)
  rw [evaluate_call hr hjoin, List.map_cons, Step.exec_gather_cons, ← evaluate_eq_exec, hstring]
  simp only [hpassed, hgather, List.singleton_append]
  refine (Agree.within ..).trans ((agree_apply ..).trans (.of_eq ?_))
  rw [Eval.exec_act, Eval.exec_act, Store.call_join hkept]

theorem evaluate_spread (settings : Settings) (ha : σ.store.isBranch a = false)
    (hitems : σ.store.data a = .slice items) :
    ∃ q τ, evaluate settings .spread a σ = (.ok q, τ) ∧ σ.Extends τ ∧
      τ.store.passed q = .ok items := by
  let n : Node := ⟨.slice items, { Marks.none with spread := true }⟩
  refine ⟨(σ.store.add n).1, { σ with store := (σ.store.add n).2 }, evaluate_ok _ ha ?_,
    .add σ n, ?_⟩
  · rw [← Store.mark_add_self σ.store ⟨.slice items, Marks.none⟩ fun m =>
      { m with spread := true }]
    rw [Expr.denote, Step.spread, Eval.exec_bind, Eval.exec_read, hitems]
    rfl
  · simp only [Store.passed, Store.isSpread, Store.marks, Store.items?, Store.data,
      Store.node_add_self, n]
    rfl

theorem agree_subject_join (hjoin : settings.functions.find? "join" = some Builtin.join)
    (hr : ρ.store.isBranch r = false) (heval : evaluate settings xs r ρ = (.ok a, τ))
    (ha : τ.store.isBranch a = false) :
    Agree (evaluate settings (TextForm.subject.join separator xs) r ρ)
      ((Eval.act (Builtin.joinWith separator a [])).exec settings (τ.separated separator)) :=
  (agree_chained hr rfl heval).trans (agree_call_join separator [] hjoin ha rfl (.refl _))

section
variable (hs : settings.Regular) (hjoin : settings.functions.find? "join" = some Builtin.join)
  (hxs : xs.assignFree = true)
include hs hxs

/-- Elsewhere it comes after the separator. That makes no difference to an expression without
assignments, which leaves the separator alone. -/
theorem evaluate_separated (separator : String) (h : ρ.Alike m ρ') (hr : m r r')
    (heval : evaluate settings xs r ρ = (.ok a, τ)) :
    ∃ l b υ, m ≤ l ∧ evaluate settings xs r' (ρ'.separated separator) = (.ok b, υ) ∧
      τ.Alike l υ ∧ l a b ∧ (ρ'.separated separator).Later υ := by
  have hseparated : ρ.Alike m (ρ'.separated separator) := h.extends_right (.new ρ' _)
  obtain ⟨l, b, υ, hl, heval', halike, hab⟩ := hseparated.evaluate_ok hs.respectful hr heval
  have hlater := evaluate_leads_of_assignFree Session.Later.tolerant hs.keeping.gentle hxs r'
    (ρ'.separated separator)
  rw [heval'] at hlater
  exact ⟨l, b, υ, hl, heval', halike, hab, hlater⟩

include hjoin

/-- Each form comes to a call with its own target and arguments, in a session that is alike to the
one where the slice has been evaluated. -/
theorem agree_join (separator : String) (h : ρ.Alike m ρ') (hr : m r r')
    (hsingle : ρ'.store.isBranch r' = false) (heval : evaluate settings xs r ρ = (.ok a, τ))
    (ha : τ.store.TextSlice a texts) (form : TextForm) :
    ∃ l b υ, m ≤ l ∧ τ.Alike l υ ∧ l a b ∧
      Agree (evaluate settings (form.join separator xs) r' ρ')
      ((Eval.act (Builtin.joinWith separator (form.target b r') (form.rest υ.store b))).exec
        settings υ) := by
  cases form with
  | argument =>
    obtain ⟨l, b, υ, hl, heval', halike, hab, hlater⟩ :=
      evaluate_separated hs hxs separator h hr heval
    have hpassed := (halike.store.textSlice_right hab ha).passed
    exact ⟨l, b, υ, hl, halike, hab,
      agree_call_join separator _ hjoin hsingle (exec_gather_single heval' hpassed) hlater⟩
  | spread =>
    obtain ⟨l, b, υ, hl, heval', halike, hab, hlater⟩ :=
      evaluate_separated hs hxs separator h hr heval
    obtain ⟨hbranch, items, hitems, -⟩ := halike.store.textSlice_right hab ha
    obtain ⟨q, ψ, hspread, hψ, hpassed⟩ := evaluate_spread settings hbranch hitems
    have hseparated : (ρ'.separated separator).store.isBranch r' = false :=
      ((Session.Extends.new ρ' _).isBranch (h.store.lt hr).2).trans hsingle
    have hchain := agree_chained (f := .spread) hseparated rfl heval'
    rw [hspread] at hchain
    have hrest : TextForm.spread.rest ψ.store b = items := by
      rw [TextForm.rest, hψ.data (halike.store.lt hab).2, hitems, Data.children]
    refine ⟨l, b, ψ, hl, halike.extends_right hψ, hab, ?_⟩
    rw [hrest]
    exact agree_call_join separator _ hjoin hsingle (exec_gather_single hchain.eq_ok hpassed)
      (hlater.trans hψ.later)
  | subject =>
    obtain ⟨l, b, υ, hl, heval', halike, hab⟩ := h.evaluate_ok hs.respectful hr heval
    exact ⟨l, b, υ.separated separator, hl, halike.extends_right (.new _ _), hab,
      agree_subject_join hjoin hsingle heval' (halike.store.textSlice_right hab ha).not_branch⟩

-- ---------------------------------------------------------------------------
-- One subject
-- ---------------------------------------------------------------------------

theorem evaluate_join (separator : String) (hρ : ρ.Sound .soundness) (hr : ρ.store.Single r)
    (heval : evaluate settings xs r ρ = (.ok a, τ)) (ha : τ.store.TextSlice a texts)
    (hform : form.Reaches texts (τ.store.isSpread a)) :
    ∃ q υ, evaluate settings (form.join separator xs) r ρ = (.ok q, υ) ∧
      υ.store.data q = .string (separator.intercalate texts) := by
  obtain ⟨l, b, υ, -, halike, hab, hagree⟩ := agree_join hs hjoin hxs separator hρ.alike_self
    ⟨rfl, hr.known⟩ hr.not_branch heval ha form
  rw [halike.store.isSpread_eq hab] at hform
  rw [exec_joinWith separator r form (halike.store.textSlice_right hab ha) hform,
    Eval.exec_new] at hagree
  exact ⟨_, _, hagree.eq_ok, congrArg Node.data (υ.store.node_add_self _)⟩

theorem matches_join (separator : String) (h : ρ.Alike m ρ') (hr : m r r')
    (hsingle : ρ.store.Single r) (heval : evaluate settings xs r ρ = (.ok a, τ))
    (ha : τ.store.TextSlice a texts) (hform : form.Reaches texts (τ.store.isSpread a)) :
    Matches m (fun l => l) (evaluate settings (TextForm.subject.join separator xs) r ρ)
      (evaluate settings (form.join separator xs) r' ρ') := by
  obtain ⟨l, b, υ, hl, halike, hab, hagree⟩ := agree_join hs hjoin hxs separator h hr
    (h.store.single hr hsingle).not_branch heval ha form
  have hb := halike.store.textSlice_right hab ha
  rw [halike.store.isSpread_eq hab] at hform
  -- the texts are the same, wherever the function finds them
  have hsame :
      (Eval.act (Builtin.joinWith separator (form.target b r') (form.rest υ.store b))).exec
      settings υ = (Eval.act (Builtin.joinWith separator b [])).exec settings υ :=
    (exec_joinWith separator r' form hb hform).trans
      (exec_joinWith separator r' .subject hb trivial).symm
  rw [hsame] at hagree
  refine .weaken hl
    (.congr (agree_subject_join hjoin hsingle.not_branch heval ha.not_branch) hagree ?_)
  exact .of_alike (.act (Builtin.joinWith_alike separator hab .nil))
    (halike.extends_left (.new _ _))

/-- A form in which the function does not get to see the slice joins the subject instead. -/
theorem indistinct_join (separator : String) (hρ : ρ.Sound .soundness) (hr : ρ.store.Single r)
    (heval : evaluate settings xs r ρ = (.ok a, τ)) (ha : τ.store.TextSlice a texts)
    (hform : ¬ form.Reaches texts (τ.store.isSpread a)) :
    texts = [] ∧ ρ.Indistinct (evaluate settings (.call "join" [.string separator]) r τ)
      (evaluate settings (form.join separator xs) r ρ) := by
  obtain ⟨l, b, υ, hl, halike, hab, hagree⟩ := agree_join hs hjoin hxs separator hρ.alike_self
    ⟨rfl, hr.known⟩ hr.not_branch heval ha form
  rw [halike.store.isSpread_eq hab] at hform
  obtain ⟨hnone, htarget, hrest⟩ := (halike.store.textSlice_right hab ha).of_not_reaches r hform
  rw [htarget, hrest] at hagree
  obtain ⟨-, hon, -⟩ := hρ.after hs.keeping hr.known heval
  have halone := agree_call_join separator [] hjoin (hon.single hr).not_branch rfl (.refl _)
  refine ⟨hnone, Matches.indistinct (.weaken hl (.congr halone hagree ?_)) fun _ hq =>
    ⟨rfl, hq⟩⟩
  exact .of_alike (.act (Builtin.joinWith_alike separator (hl _ _ ⟨rfl, hr.known⟩) .nil))
    (halike.extends_left (.new _ _))

end

-- ---------------------------------------------------------------------------
-- All subjects
-- ---------------------------------------------------------------------------

theorem Registry.find?_join (files : FileSystem) :
    (Registry.builtins files).find? "join" = some Builtin.join := rfl

/-- In every session that a program meets, and on every subject, the forms in which the function
gets to see the slice cannot be told apart; each time they give its texts with the separator between
them. The slice has no texts where the function does not get to see it, and then the form cannot be
told apart from the call with the separator alone. -/
theorem join_forms_agree (files : FileSystem) (environment : Environment) (limit : Nat)
    (hσ : σ.Met ⟨Registry.builtins files, environment, limit⟩) (hsub : σ.store.Known subject)
    (hxs : xs.assignFree = true) (separator : String) :
    let settings : Settings := ⟨Registry.builtins files, environment, limit⟩
    let join (form : TextForm) := evaluate settings (form.join separator xs)
    let Turn := σ.Turn settings (TextForm.subject.join separator xs) subject
    (∀ f g : TextForm, (∀ ρ r, Turn ρ r → ∃ a τ texts,
        evaluate settings xs r ρ = (.ok a, τ) ∧
        τ.store.TextSlice a texts ∧ f.Reaches texts (τ.store.isSpread a) ∧
        g.Reaches texts (τ.store.isSpread a)) →
      σ.Indistinct (join f subject σ) (join g subject σ)) ∧
    ∀ ρ r a τ texts, Turn ρ r → evaluate settings xs r ρ = (.ok a, τ) →
      τ.store.TextSlice a texts → ∀ form : TextForm,
        (form.Reaches texts (τ.store.isSpread a) → ∃ q υ, join form r ρ = (.ok q, υ) ∧
          υ.store.data q = .string (separator.intercalate texts)) ∧
        (¬ form.Reaches texts (τ.store.isSpread a) → texts = [] ∧
          ρ.Indistinct (evaluate settings (.call "join" [.string separator]) r τ)
            (join form r ρ)) := by
  intro settings join Turn
  have hs := Settings.regular_builtins files environment limit
  have hjoin := Registry.find?_join files
  have hsound := hσ.sound hs.keeping
  have hsubject (form : TextForm) (hturns : ∀ ρ r, Turn ρ r → ∃ a τ texts,
      evaluate settings xs r ρ = (.ok a, τ) ∧ τ.store.TextSlice a texts ∧
        form.Reaches texts (τ.store.isSpread a)) :
      σ.Indistinct (join .subject subject σ) (join form subject σ) := by
    refine Matches.indistinct (matches_of_turns hs.keeping hsound hsound hsound.alike_self
      ⟨rfl, hsub⟩ ?_) fun _ hr => ⟨rfl, hr⟩
    intro l ρ ρ' r r' hturn _ _ halike hr hsingle
    obtain ⟨a, τ, texts, heval, ha, hreaches⟩ := hturns ρ r hturn
    exact matches_join hs hjoin hxs separator halike hr hsingle heval ha hreaches
  refine ⟨fun f g hturns => ?_, fun ρ r a τ texts hturn heval ha form => ?_⟩
  · refine (hsubject f fun ρ r hturn => ?_).symm.trans (hsubject g fun ρ r hturn => ?_)
    · obtain ⟨a, τ, texts, heval, ha, hf, -⟩ := hturns ρ r hturn
      exact ⟨a, τ, texts, heval, ha, hf⟩
    · obtain ⟨a, τ, texts, heval, ha, -, hg⟩ := hturns ρ r hturn
      exact ⟨a, τ, texts, heval, ha, hg⟩
  · obtain ⟨hρ, -, hr⟩ := Session.Turn.sound hs.keeping hturn hsound hsub
    exact ⟨evaluate_join hs hjoin hxs separator hρ hr heval ha,
      indistinct_join hs hjoin hxs separator hρ hr heval ha⟩

/-- Two letters with a comma between them. -/
theorem join_forms_agree_letters :
    let settings : Settings := ⟨Registry.builtins FileSystem.bare, fun _ => none, 10⟩
    let start := Session.start .null []
    let xs : Expr := .array [.string "a", .string "b"]
    let join (form : TextForm) := evaluate settings (form.join "," xs) start.1 start.2
    start.2.Met settings ∧ start.2.store.Known start.1 ∧ xs.assignFree = true ∧
      (∀ f g : TextForm, start.2.Indistinct (join f) (join g)) ∧
      ∀ form : TextForm, ∃ q υ, join form = (.ok q, υ) ∧
        υ.store.data q = .string "a,b" := by
  intro settings start xs join
  have hstart := Session.Plain.start .null []
  have hmet : start.2.Met settings := .reachable (.start settings .null [])
  have hknown : start.2.store.Known start.1 := hstart.forest.root List.mem_cons_self
  have heval : evaluate settings xs start.1 start.2 = (.ok ⟨3⟩, _) :=
    evaluate_of_toOption (by decide +kernel)
  have hslice : (evaluate settings xs start.1 start.2).2.store.TextSlice ⟨3⟩ ["a", "b"] :=
    .of_reads (by decide +kernel) (show _ = some [⟨1⟩, ⟨2⟩] by decide +kernel)
      (by decide +kernel)
  have hreaches (form : TextForm) (mark : Bool) : form.Reaches ["a", "b"] mark := by
    cases form <;> simp [TextForm.Reaches]
  have htext : ",".intercalate ["a", "b"] = "a,b" := by decide
  have hnot := hstart.unmarked.isBranch start.1
  have hfree : xs.assignFree = true := rfl
  obtain ⟨hforms, hgives⟩ :=
    join_forms_agree FileSystem.bare (fun _ => none) 10 hmet hknown hfree ","
  refine ⟨hmet, hknown, hfree, fun f g => hforms f g fun ρ r hturn => ?_, fun form => ?_⟩
  · obtain ⟨rfl, rfl⟩ := hturn.eq_of_single hnot
    exact ⟨⟨3⟩, _, ["a", "b"], heval, hslice, hreaches f _, hreaches g _⟩
  · rw [← htext]
    exact (hgives _ _ _ _ _ (Session.turn_of_single hnot) heval hslice form).1 (hreaches form _)

/-- Nothing is left of an empty slice that is spread, so that the subject is joined; and on a
branch, each of the elements is joined on its own. -/
theorem join_forms_differ :
    let settings : Settings := ⟨Registry.builtins FileSystem.bare, fun _ => none, 10⟩
    let start := Session.start .null []
    let join (form : TextForm) (xs : Expr) := evaluate settings (form.join "," xs) start.1 start.2
    let text (x : Except EvalError Ref × Session) :=
      x.1.toOption.map fun r => Json.compact (x.2.store.content r)
    let none : Expr := .array []
    let branch : Expr := .branch [.string "a", .string "b"]
    (text (join .argument none) = some "\"\"".toList ∧
      text (join .subject none) = some "\"\"".toList ∧ (join .spread none).1.toOption = .none ∧
      ¬ start.2.Indistinct (join .argument none) (join .spread none)) ∧
    text (join .argument branch) = some "\"a,b\"".toList ∧
      (join .subject branch).1.toOption = .none ∧
      ¬ start.2.Indistinct (join .argument branch) (join .subject branch) := by
  intro settings start join text none branch
  have hargument : (join .argument none).1.toOption.isSome ∧
      (join .argument branch).1.toOption.isSome := by
    decide +kernel
  have hother : (join .spread none).1.toOption = .none ∧
      (join .subject branch).1.toOption = .none := by
    decide +kernel
  exact ⟨⟨by decide +kernel, by decide +kernel, hother.1,
      Session.Indistinct.not_of_error hargument.1 hother.1⟩,
    by decide +kernel, hother.2, Session.Indistinct.not_of_error hargument.2 hother.2⟩

end DocSelect
