import DocSelect.Proofs.Listing
import DocSelect.Proofs.Turns
import DocSelect.Proofs.Wrapping.Builtin
import DocSelect.Proofs.Wrapping.Step

/-!
# Where errors come from

An error says where it comes from: its wrappers name expressions, from the one that was evaluated
down to the one that failed, each of them a direct part of the one before. Only where this last one
is a call can there be one more wrapper, for the function that failed.
-/
namespace DocSelect

/-- Settings whose functions fail with errors without wrappers. -/
def Settings.Bare (settings : Settings) : Prop :=
  ∀ name f, settings.functions.find? name = some f → f.Bare

theorem Settings.bare_builtins (files : FileSystem) (environment : Environment) (limit : Nat) :
    Bare ⟨Registry.builtins files, environment, limit⟩ :=
  fun _ _ => Registry.builtins_bare

namespace Expr

-- ---------------------------------------------------------------------------
-- Direct parts
-- ---------------------------------------------------------------------------

def entryChildren : ObjectEntry → List Expr
  | .spread source => source.toList
  | .pair key value => [key, value]

/-- The expressions that an expression is directly made of. -/
def children : Expr → List Expr
  | index e | not e | group e | map e | each e | filter e | search e | sortBy e _ => [e]
  | range start stop => start.toList ++ stop.toList
  | binary _ a b | assign a _ b => [a, b]
  | call _ es | array es | chain es | branch es => es
  | object entries => entries.flatMap entryChildren
  | conditional condition consequence alternative => condition :: consequence :: alternative.toList
  | _ => []

/-- An error that arises in evaluating an expression: in itself, in the function that it calls, or
in one of its parts. -/
inductive Blames : Expr → EvalError → Prop
  | here (e : Expr) {x : EvalError} (h : x.Bare) : Blames e (.within e.kindName x)
  | function (name : String) (arguments : List Expr) {x : EvalError} (h : x.Bare) :
    Blames (call name arguments) (.within (call name arguments).kindName (.inFunction name x))
  | part {e c : Expr} {x : EvalError} (hc : c ∈ e.children) (h : Blames c x) :
    Blames e (.within e.kindName x)

inductive Raises (e : Expr) : EvalError → Prop
  | bare {x : EvalError} (h : x.Bare) : Raises e x
  | function {name : String} {arguments : List Expr} {x : EvalError} (he : e = call name arguments)
    (h : x.Bare) : Raises e (.inFunction name x)
  | part {c : Expr} {x : EvalError} (hc : c ∈ e.children) (h : Blames c x) : Raises e x

theorem Raises.blames {e : Expr} {x : EvalError} (h : e.Raises x) :
    e.Blames (.within e.kindName x) := by
  cases h with
  | bare h => exact .here e h
  | function he h =>
    subst he
    exact .function _ _ h
  | part hc h => exact .part hc h

-- ---------------------------------------------------------------------------
-- Every expression
-- ---------------------------------------------------------------------------

/-- A part that is evaluated on every subject. On a branch an error may also arise in taking its
elements or results, outside the part. -/
theorem throws_part {settings : Settings} {e c : Expr} (h : Step.Throws settings c.Raises c.denote)
    (hc : c ∈ e.children) : Step.Throws settings e.Raises (c.lift c.denote) := by
  have hlift : Step.Throws settings (fun x => x.Bare ∨ c.Blames x) (c.lift c.denote) :=
    .broadcast (fun _ => .inl) (.within h fun _ hx => .inr hx.blames)
  exact fun r => (hlift r).mono fun _ hx => hx.elim .bare (.part hc)

section
variable {settings : Settings} (hs : settings.Bare)
include hs

set_option linter.unusedSectionVars false in
mutual

theorem throws_denote : (e : Expr) → Step.Throws settings e.Raises e.denote
  | float _ | integer _ | string _ | boolean _ | null => by
    unfold denote
    exact fun _ => .new _
  | regex _ => by
    unfold denote
    exact fun _ => .throw (.bare rfl)
  | property name => by
    unfold denote
    exact .property (fun _ => .bare) name
  | index key => by
    unfold denote
    exact .index (fun _ => .bare) (throws_part (throws_denote key) List.mem_cons_self)
  | range start stop => by
    unfold denote
    exact .range (fun _ => .bare) (throws_denoteOption start fun c hc => List.mem_append_left _ hc)
      (throws_denoteOption stop fun c hc => List.mem_append_right _ hc)
  | var name => by
    unfold denote
    exact .var (fun _ => .bare) name
  | binary op left right => by
    have hl := throws_part (e := binary op left right) (throws_denote left) List.mem_cons_self
    have hr := throws_part (e := binary op left right) (throws_denote right)
      (List.mem_cons_of_mem _ List.mem_cons_self)
    unfold denote
    cases op
    case coalesce => exact .coalesce (fun _ => .bare) hl hr
    all_goals exact .binary (fun _ => .bare) _ _ hl hr
  | not operand => by
    unfold denote
    exact .not (fun _ => .bare) (throws_part (throws_denote operand) List.mem_cons_self)
  | assign target op value => by
    unfold denote
    exact .assign (fun _ => .bare) _ op (throws_part (throws_denote target) List.mem_cons_self)
      (throws_part (throws_denote value) (List.mem_cons_of_mem _ List.mem_cons_self))
  | call name arguments => by
    unfold denote
    refine .call (fun _ => .bare) (fun f hfind r refs s x hx => ?_)
      (throws_denoteAll arguments fun _ => id)
    exact .function rfl ((hs name f hfind).call r refs s x hx)
  | object entries => by
    unfold denote
    exact .object (fun _ => .bare) (throws_denoteEntries entries fun _ => id)
  | array items => by
    unfold denote
    exact .array (fun _ => .bare) (throws_denoteAll items fun _ => id)
  | chain steps => by
    unfold denote
    exact .chain (throws_denoteAll steps fun _ => id)
  | spread => by
    unfold denote
    exact .spread fun _ => .bare
  | group inner => by
    unfold denote
    exact throws_part (throws_denote inner) List.mem_cons_self
  | conditional condition consequence alternative => by
    unfold denote
    exact .conditional (fun _ => .bare) (throws_part (throws_denote condition) List.mem_cons_self)
      (throws_part (throws_denote consequence) (List.mem_cons_of_mem _ List.mem_cons_self))
      (throws_denoteOption alternative fun c hc =>
        List.mem_cons_of_mem _ (List.mem_cons_of_mem _ hc))
  | branch results => by
    unfold denote
    exact .branch (fun _ => .bare) (throws_denoteAll results fun _ => id)
  | map step => by
    unfold denote
    exact .map (fun _ => .bare) (throws_part (throws_denote step) List.mem_cons_self)
  | each step => by
    unfold denote
    exact .each (fun _ => .bare) (throws_part (throws_denote step) List.mem_cons_self)
  | filter predicate => by
    unfold denote
    exact .filter (fun _ => .bare) (throws_part (throws_denote predicate) List.mem_cons_self)
  | search predicate => by
    unfold denote
    exact .search (fun _ => .bare) (throws_part (throws_denote predicate) List.mem_cons_self)
  | sortBy key direction => by
    unfold denote
    exact .sortBy (fun _ => .bare) (throws_part (throws_denote key) List.mem_cons_self) direction
  | descend target => by
    unfold denote
    exact .descend target

theorem throws_denoteAll {e : Expr} : (es : List Expr) → (∀ c ∈ es, c ∈ e.children) →
    ∀ f ∈ denoteAll es, Step.Throws settings e.Raises f
  | [], _, _, hf => by simp [denoteAll] at hf
  | c :: es, h, f, hf => by
    simp only [denoteAll, List.mem_cons] at hf
    rcases hf with rfl | hf
    · exact throws_part (throws_denote c) (h c List.mem_cons_self)
    · exact throws_denoteAll es (fun d hd => h d (List.mem_cons_of_mem _ hd)) f hf

theorem throws_denoteOption {e : Expr} :
    (o : Option Expr) → (∀ c ∈ o.toList, c ∈ e.children) →
    ∀ f ∈ denoteOption o, Step.Throws settings e.Raises f
  | none, _, _, hf => by simp [denoteOption] at hf
  | some c, h, f, hf => by
    simp only [denoteOption, Option.mem_some_iff] at hf
    subst hf
    exact throws_part (throws_denote c) (h c List.mem_cons_self)

theorem throws_denoteEntries {e : Expr} : (es : List ObjectEntry) →
    (∀ c ∈ es.flatMap entryChildren, c ∈ e.children) →
    ∀ f ∈ denoteEntries es, Step.Throws.ofEntry settings e.Raises f
  | [], _, _, hf => by simp [denoteEntries] at hf
  | .spread source :: es, h, f, hf => by
    rw [List.flatMap_cons] at h
    simp only [denoteEntries, denoteEntry, List.mem_cons] at hf
    rcases hf with rfl | hf
    · exact throws_denoteOption source fun c hc => h c (List.mem_append_left _ hc)
    · exact throws_denoteEntries es (fun c hc => h c (List.mem_append_right _ hc)) f hf
  | .pair key value :: es, h, f, hf => by
    rw [List.flatMap_cons] at h
    simp only [denoteEntries, denoteEntry, List.mem_cons] at hf
    rcases hf with rfl | hf
    · exact ⟨throws_part (throws_denote key) (h key List.mem_cons_self),
        throws_part (throws_denote value) (h value (List.mem_cons_of_mem _ List.mem_cons_self))⟩
    · exact throws_denoteEntries es (fun c hc => h c (List.mem_append_right _ hc)) f hf

end

end

-- ---------------------------------------------------------------------------
-- The way down
-- ---------------------------------------------------------------------------

/-- A way from an expression down through parts of parts. -/
structure Descends (e : Expr) (path : List Expr) : Prop where
  head : path.head? = some e
  parts : path.IsChain fun a b => b ∈ a.children

/-- The wrappers of an error on this way: one for each expression, and one more if the last of them
is a call and the function has failed. -/
def Wraps (path : List Expr) (wrappers : List Wrapper) : Prop :=
  wrappers = path.map (fun a => .node a.kindName) ∨
    ∃ name arguments, path.getLast? = some (call name arguments) ∧
      wrappers = path.map (fun a => .node a.kindName) ++ [.function name]

theorem Blames.exists_path {e : Expr} {x : EvalError} (h : e.Blames x) :
    ∃ path, e.Descends path ∧ Wraps path x.wrappers := by
  induction h with
  | here e h =>
    refine ⟨[e], ⟨rfl, .singleton e⟩, .inl ?_⟩
    rw [EvalError.wrappers, h]
    rfl
  | function name arguments h =>
    refine ⟨[call name arguments], ⟨rfl, .singleton _⟩, .inr ⟨name, arguments, rfl, ?_⟩⟩
    rw [EvalError.wrappers, EvalError.wrappers, h]
    rfl
  | @part e c x hc _ ih =>
    obtain ⟨path, ⟨hhead, hparts⟩, hwraps⟩ := ih
    obtain ⟨rest, rfl⟩ : ∃ rest, path = c :: rest := by
      cases path <;> cases hhead
      exact ⟨_, rfl⟩
    refine ⟨e :: c :: rest, ⟨rfl, .cons_cons hc hparts⟩, ?_⟩
    rw [Wraps, EvalError.wrappers]
    rcases hwraps with hwraps | ⟨name, arguments, hlast, hwraps⟩ <;> rw [hwraps]
    · exact .inl rfl
    · exact .inr ⟨name, arguments, hlast, rfl⟩

end Expr

variable {σ τ : Session} {e : Expr} {subject : Ref} {x : EvalError}

/-- In every session that a program meets, an evaluation that fails does so with an error whose
wrappers, from the outside, name the expression and then a part of each expression before, down to
the one that failed. A function is named only directly inside the call of it, and by the last
wrapper. The cause is what remains. -/
theorem error_wrappers (files : FileSystem) (environment : Environment) (limit : Nat)
    (hσ : σ.Met ⟨Registry.builtins files, environment, limit⟩) (hsub : σ.store.Known subject)
    (h : evaluate ⟨Registry.builtins files, environment, limit⟩ e subject σ = (.error x, τ)) :
    (∃ path, e.Descends path ∧ Expr.Wraps path x.wrappers) ∧ x.rootCause.Bare ∧
      x.wrappers.foldr Wrapper.around x.rootCause = x := by
  have hs := Settings.keeping_builtins .soundness files environment limit
  refine ⟨?_, x.bare_rootCause, x.foldr_wrappers⟩
  obtain ⟨ρ, r, hturn, hfail⟩ := Session.Turn.of_error hs (hσ.sound hs) hsub h
  obtain ⟨-, -, hr⟩ := hturn.sound hs (hσ.sound hs) hsub
  rw [evaluate_of_not_branch _ hr.not_branch] at hfail
  have hraises := Expr.throws_denote (Settings.bare_builtins files environment limit) e r ρ
  rcases hrun : (e.denote r).exec _ ρ with ⟨y | q, υ⟩ <;>
    rw [hrun] at hfail hraises <;> cases hfail
  exact (hraises y rfl).blames.exists_path

/-- A function that fails inside a chain that is mapped over a slice. -/
theorem error_wrappers_call :
    let settings : Settings := ⟨Registry.builtins FileSystem.bare, fun _ => none, 10⟩
    let start := Session.start (.slice [.string "a", .int 1]) []
    let e : Expr := .map (.chain [.var "this", .call "len" [.var "this"]])
    ∃ x, (evaluate settings e start.1 start.2).1 = .error x ∧
      (∃ path, e.Descends path ∧ Expr.Wraps path x.wrappers) ∧
      x.wrappers = [.node "map", .node "chain", .node "call", .function "len"] := by
  intro settings start e
  have hmet : start.2.Met settings := .reachable (.start settings _ _)
  have hknown : start.2.store.Known start.1 := by
    show 2 < 3
    decide
  have hfail : (evaluate settings e start.1 start.2).1.toOption = none := by decide +kernel
  have hwrappers : (match (evaluate settings e start.1 start.2).1 with
      | .error x => x.wrappers
      | .ok _ => []) = [.node "map", .node "chain", .node "call", .function "len"] := by
    decide +kernel
  obtain ⟨x, hx⟩ := evaluate_of_toOption_eq_none hfail
  rw [hx] at hwrappers
  exact ⟨x, by rw [hx], (error_wrappers _ _ _ hmet hknown hx).1, hwrappers⟩

end DocSelect
