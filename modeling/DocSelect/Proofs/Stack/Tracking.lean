import DocSelect.Expr.StackParser
import DocSelect.Proofs.Precedence.Parsing
import Mathlib.Data.List.Chain

/-!
# Parsers with a stack beside parsers without one

A parser that keeps its scopes and its depth in a state tracks one that is told them: at the same
tokens the two have the same outcome and come to the same tokens, and the first one leaves its
scopes and its depth as they were. The rules here put such pairs together from smaller ones.
-/
namespace DocSelect

open DocSelect.Parser (maxDepth)

-- ---------------------------------------------------------------------------
-- States and places
-- ---------------------------------------------------------------------------

namespace ParserState

variable {s : ParserState} {c : Cursor}

theorem position_lt (h : s.ahead = c.toList) :
    s.position + c.rest.length + 1 = s.tokens.length := by
  have hlength := congrArg List.length h
  rw [ahead, List.length_drop, Cursor.toList, List.length_cons] at hlength
  omega

theorem peek_eq (h : s.ahead = c.toList) (offset : Nat) :
    s.peek offset = c.toList.getD (min offset c.rest.length) (Token.atEnd 0) := by
  have hlength := position_lt h
  have hindex : min (s.position + offset) (s.tokens.length - 1) =
      s.position + min offset c.rest.length := by
    omega
  rw [peek, hindex, ← h, ahead, List.getD_eq_getElem?_getD, List.getD_eq_getElem?_getD,
    List.getElem?_drop]

theorem peek_zero (h : s.ahead = c.toList) : s.peek 0 = c.current := by
  rw [peek_eq h, Nat.zero_min]
  rfl

theorem peek_one (h : s.ahead = c.toList) : (s.peek 1).kind = c.nextKind := by
  rw [peek_eq h]
  obtain ⟨current, rest⟩ := c
  cases rest with
  | nil => rfl
  | cons next rest => simp [Cursor.toList, Cursor.nextKind]

theorem ahead_advanced (h : s.ahead = c.toList) : s.advanced.ahead = c.advance.toList := by
  have hlength := position_lt h
  unfold advanced Cursor.advance
  split
  · rename_i hlast
    split
    · rename_i hrest
      rw [hrest, List.length_nil] at hlength
      omega
    · rename_i next rest hrest
      rw [ahead, ← List.drop_drop, ← ahead, h, Cursor.toList, hrest]
      rfl
  · rename_i hlast
    split
    · exact h
    · rename_i next rest hrest
      rw [hrest, List.length_cons] at hlength
      omega

theorem advanced_same (s : ParserState) :
    s.advanced.tokens = s.tokens ∧ s.advanced.scopes = s.scopes ∧
    s.advanced.depth = s.depth := by
  unfold advanced
  split <;> exact ⟨rfl, rfl, rfl⟩

inductive Step (s : ParserState) : ParserState → Prop
  | advanced : s.Step s.advanced
  | pushed (scope : Scope) : s.Step (s.pushed scope)
  | popped : s.Step s.popped
  | entered : s.Step s.entered
  | left : s.Step s.left

theorem Step.position_le {s' : ParserState} (h : s.Step s') : s.position ≤ s'.position := by
  cases h with
  | advanced =>
    unfold ParserState.advanced
    split
    · exact Nat.le_succ _
    · exact Nat.le_refl _
  | pushed | popped | entered | left => exact Nat.le_refl _

end ParserState

-- ---------------------------------------------------------------------------
-- Histories
-- ---------------------------------------------------------------------------

namespace ParserRun

/-- A parser has come from each state to the next one in one step, and has never been deeper than it
may. -/
structure Orderly (r : ParserRun) : Prop where
  steps : r.history.IsChain fun later earlier => earlier.Step later
  shallow : ∀ s ∈ r.history, s.depth ≤ maxDepth

structure GoesOn (r r' : ParserRun) : Prop where
  tokens : r'.now.tokens = r.now.tokens
  scopes : r'.now.scopes = r.now.scopes
  depth : r'.now.depth = r.now.depth
  history : r.history <:+ r'.history
  orderly : r.Orderly → r'.Orderly

variable {r r₁ r₂ : ParserRun} {f : ParserState → ParserState}

theorem Orderly.update (h : r.Orderly) (hstep : r.now.Step (f r.now))
    (hdepth : (f r.now).depth ≤ maxDepth) : (r.update f).Orderly :=
  ⟨List.isChain_cons_cons.2 ⟨hstep, h.steps⟩,
    List.forall_mem_cons.2 ⟨hdepth, h.shallow⟩⟩

theorem Orderly.forward (h : r.Orderly) :
    r.history.Pairwise fun later earlier => earlier.position ≤ later.position := by
  have hpositions : (r.history.map (·.position)).IsChain (· ≥ ·) :=
    (List.isChain_map _).2 (h.steps.imp fun _ _ => ParserState.Step.position_le)
  exact List.pairwise_map.1 (List.isChain_iff_pairwise.1 hpositions)

theorem Orderly.now (h : r.Orderly) : r.now.depth ≤ maxDepth := h.shallow r.now List.mem_cons_self

theorem history_update (f : ParserState → ParserState) (r : ParserRun) :
    r.history <:+ (r.update f).history :=
  List.suffix_cons _ _

namespace GoesOn

theorem refl (r : ParserRun) : r.GoesOn r := ⟨rfl, rfl, rfl, List.suffix_refl _, id⟩

theorem trans (h₁ : r.GoesOn r₁) (h₂ : r₁.GoesOn r₂) : r.GoesOn r₂ where
  tokens := h₂.tokens.trans h₁.tokens
  scopes := h₂.scopes.trans h₁.scopes
  depth := h₂.depth.trans h₁.depth
  history := h₁.history.trans h₂.history
  orderly := h₂.orderly ∘ h₁.orderly

theorem scope (h : r.GoesOn r₁) : r₁.now.scope = r.now.scope :=
  congrArg (·.head?.getD Scope.root) h.scopes

theorem advanced (r : ParserRun) : r.GoesOn (r.update .advanced) where
  tokens := r.now.advanced_same.1
  scopes := r.now.advanced_same.2.1
  depth := r.now.advanced_same.2.2
  history := history_update _ r
  orderly h := h.update .advanced (r.now.advanced_same.2.2 ▸ h.now)

theorem within {scope : Scope} (h : (r.update (.pushed scope)).GoesOn r₁) :
    r.GoesOn (r₁.update .popped) where
  tokens := h.tokens
  scopes := congrArg List.tail h.scopes
  depth := h.depth
  history := (history_update _ r).trans (h.history.trans (history_update _ r₁))
  orderly hr :=
    have hpushed : (r.update (.pushed scope)).Orderly := hr.update (.pushed scope) hr.now
    (h.orderly hpushed).update .popped (h.orderly hpushed).now

theorem deeper (hdepth : r.now.depth < maxDepth) (h : (r.update .entered).GoesOn r₁) :
    r.GoesOn (r₁.update .left) where
  tokens := h.tokens
  scopes := h.scopes
  depth := congrArg (· - 1) h.depth
  history := (history_update _ r).trans (h.history.trans (history_update _ r₁))
  orderly hr :=
    have hentered : (r.update .entered).Orderly := hr.update .entered hdepth
    (h.orderly hentered).update .left (Nat.le_trans (Nat.sub_le _ _) (h.orderly hentered).now)

end GoesOn

end ParserRun

-- ---------------------------------------------------------------------------
-- Running
-- ---------------------------------------------------------------------------

namespace StackParser

variable {α β : Type}

theorem exec_bind (x : StackParser α) (f : α → StackParser β) (r : ParserRun) :
    (x >>= f).exec r =
      match x.exec r with
      | (.ok a, r) => (f a).exec r
      | (.error e, r) => (.error e, r) := by
  simp only [exec, ExceptT.run_bind, StateT.run_bind]
  rcases StateT.run (ExceptT.run x) r with ⟨_ | _, _⟩ <;> rfl

theorem exec_finally (x : StackParser α) (f : ParserState → ParserState) (r : ParserRun) :
    (tryFinally x (update f)).exec r = ((x.exec r).1, (x.exec r).2.update f) := by
  -- only what `x` does in this state counts, so it may as well do the same in each
  have hconstant : ∀ p : Except ParseError α × ParserRun,
      exec (tryFinally (ExceptT.mk fun _ => p) (update f)) r = (p.1, p.2.update f) := by
    rintro ⟨e | a, r'⟩ <;> rfl
  exact hconstant (x.exec r)

theorem exec_within (scope : Scope) (x : StackParser α) (r : ParserRun) :
    (within scope x).exec r =
      ((x.exec (r.update (.pushed scope))).1,
        (x.exec (r.update (.pushed scope))).2.update .popped) := by
  unfold within
  rw [exec_bind]
  exact exec_finally x .popped (r.update (.pushed scope))

theorem exec_deeper {x : StackParser α} {r : ParserRun} (h : r.now.depth < maxDepth) :
    (deeper x).exec r = ((x.exec (r.update .entered)).1,
      (x.exec (r.update .entered)).2.update .left) := by
  unfold deeper
  rw [exec_bind, show state.exec r = (.ok r.now, r) from rfl]
  dsimp only
  rw [if_neg (Nat.not_le_of_lt h), exec_bind]
  exact exec_finally x .left (r.update .entered)

theorem exec_deeper_of_le {x : StackParser α} {r : ParserRun} (h : maxDepth ≤ r.now.depth) :
    (deeper x).exec r = tooDeep.exec r := by
  unfold deeper
  rw [exec_bind, show state.exec r = (.ok r.now, r) from rfl]
  dsimp only
  rw [if_pos h]

-- ---------------------------------------------------------------------------
-- Parsers side by side
-- ---------------------------------------------------------------------------

/-- At the same tokens, in a scope and at a depth, the two parsers have the same outcome and come to
the same tokens. -/
def Tracks (depth : Nat) (scope : Scope) (x : StackParser α) (y : Parser α) : Prop :=
  ∀ r c, r.now.ahead = c.toList → r.now.depth = depth → r.now.scope = scope →
    ∃ outcome r' c', x.exec r = (outcome, r') ∧ y.exec c = (outcome, c') ∧
      r'.now.ahead = c'.toList ∧ r.GoesOn r'

namespace Tracks

variable {depth : Nat} {scope : Scope} {x : StackParser α} {y : Parser α} {k : TokenKind}

theorem pure (a : α) : Tracks depth scope (pure a) (pure a) :=
  fun r c hahead _ _ => ⟨.ok a, r, c, rfl, rfl, hahead, .refl r⟩

theorem throw (e : ParseError) : Tracks depth scope (throw e : StackParser α) (throw e) :=
  fun r c hahead _ _ => ⟨.error e, r, c, rfl, rfl, hahead, .refl r⟩

theorem bind {f : α → StackParser β} {g : α → Parser β} (h : Tracks depth scope x y)
    (hf : ∀ a, Tracks depth scope (f a) (g a)) : Tracks depth scope (x >>= f) (y >>= g) := by
  intro r c hahead hdepth hscope
  obtain ⟨outcome, r₁, c₁, hx, hy, hahead₁, hr₁⟩ := h r c hahead hdepth hscope
  rw [exec_bind, Parser.exec_bind, hx, hy]
  cases outcome with
  | error e => exact ⟨.error e, r₁, c₁, rfl, rfl, hahead₁, hr₁⟩
  | ok a =>
    obtain ⟨outcome, r₂, c₂, hfx, hgy, hahead₂, hr₂⟩ :=
      hf a r₁ c₁ hahead₁ (hr₁.depth.trans hdepth) (hr₁.scope.trans hscope)
    exact ⟨outcome, r₂, c₂, hfx, hgy, hahead₂, hr₁.trans hr₂⟩

theorem map {f : α → β} (h : Tracks depth scope x y) :
    Tracks depth scope (do return f (← x)) (do return f (← y)) := h.bind fun a => pure (f a)

theorem state {f : ParserState → StackParser α}
    (h : ∀ s, s.depth = depth → s.scope = scope →
    Tracks depth scope (f s) y) : Tracks depth scope (state >>= f) y := by
  intro r c hahead hdepth hscope
  rw [exec_bind]
  exact h r.now hdepth hscope r c hahead hdepth hscope

theorem current : Tracks depth scope current Parser.current :=
  fun r c hahead _ _ =>
    ⟨.ok c.current, r, c, by rw [← ParserState.peek_zero hahead]; rfl, rfl, hahead, .refl r⟩

theorem kind : Tracks depth scope kind Parser.kind := current.map

theorem nextKind : Tracks depth scope nextKind Parser.nextKind :=
  fun r c hahead _ _ =>
    ⟨.ok c.nextKind, r, c, by rw [← ParserState.peek_one hahead]; rfl, rfl, hahead, .refl r⟩

theorem rounds : Tracks depth scope rounds Parser.rounds :=
  fun r c hahead _ _ =>
    ⟨.ok c.toList.length, r, c, by rw [← hahead]; rfl, rfl, hahead, .refl r⟩

theorem advance : Tracks depth scope advance Parser.advance :=
  fun r c hahead _ _ =>
    ⟨.ok (), _, c.advance, rfl, rfl, ParserState.ahead_advanced hahead, .advanced r⟩

theorem unexpected : Tracks depth scope (unexpected : StackParser α) Parser.unexpected :=
  current.bind fun token => throw (.unexpected token)

theorem tooDeep : Tracks depth scope (tooDeep : StackParser α) Parser.tooDeep :=
  current.bind fun token => throw (.tooDeep maxDepth token.position)

theorem expect : Tracks depth scope (expect k) (Parser.expect k) := by
  unfold StackParser.expect Parser.expect
  refine kind.bind fun k => ?_
  split
  · exact advance
  · exact unexpected

theorem expectEnd : Tracks depth scope expectEnd (Parser.expectEnd scope) := by
  unfold StackParser.expectEnd Parser.expectEnd
  refine kind.bind fun k => state fun s _ hscope => ?_
  rw [hscope]
  split
  · exact pure ()
  · exact unexpected

theorem within {inner : Scope} (h : Tracks depth inner x y) :
    Tracks depth scope (within inner x) y := by
  intro r c hahead hdepth _
  obtain ⟨outcome, r₁, c₁, hx, hy, hahead₁, hr₁⟩ :=
    h (r.update (.pushed inner)) c hahead hdepth rfl
  rw [exec_within, hx]
  exact ⟨outcome, _, c₁, rfl, hy, hahead₁, hr₁.within⟩

theorem deeper (hlt : depth < maxDepth) (h : Tracks (depth + 1) scope x y) :
    Tracks depth scope (deeper x) y := by
  intro r c hahead hdepth hscope
  obtain ⟨outcome, r₁, c₁, hx, hy, hahead₁, hr₁⟩ :=
    h (r.update .entered) c hahead (congrArg (· + 1) hdepth) hscope
  rw [exec_deeper (hdepth ▸ hlt), hx]
  exact ⟨outcome, _, c₁, rfl, hy, hahead₁, hr₁.deeper (hdepth ▸ hlt)⟩

theorem deepest (hle : maxDepth ≤ depth) :
    Tracks depth scope (StackParser.deeper x) Parser.tooDeep := by
  intro r c hahead hdepth hscope
  rw [exec_deeper_of_le (hdepth ▸ hle)]
  exact tooDeep r c hahead hdepth hscope

end Tracks

end StackParser

end DocSelect
