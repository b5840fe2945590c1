import DocSelect.Expr.UnboundedParser
import DocSelect.Proofs.Stack.Tracking

/-!
# Parsers without bounds beside parsers with bounds

A parser without bounds follows one with bounds from a state on if it has an answer there, and that
is what the other one does. Both are then at a place among the tokens, and after a success at one
that is further on by a number of tokens. The rules here put such pairs together from smaller ones.
-/
namespace DocSelect

open DocSelect.Parser (maxDepth)

-- ---------------------------------------------------------------------------
-- Places
-- ---------------------------------------------------------------------------

namespace ParserState

variable {s s' s'' : ParserState} {n : Nat}

structure Placed (s : ParserState) : Prop where
  inside : s.position < s.tokens.length
  ended : ∀ t ∈ s.tokens.getLast?, t.kind = .eof

namespace Placed

theorem peek?_eq (h : s.Placed) (offset : Nat) : s.peek? offset = some (s.peek offset) := by
  have hinside := h.inside
  have hindex : min (s.position + offset) (s.tokens.length - 1) < s.tokens.length := by omega
  rw [peek?, peek, List.getD_eq_getElem?_getD, List.getElem?_eq_getElem hindex, Option.getD_some]

theorem lt_of_kind_ne (h : s.Placed) (hk : (s.peek 0).kind ≠ .eof) :
    s.position < s.tokens.length - 1 := by
  have hinside := h.inside
  refine Nat.lt_of_le_of_ne (by omega) fun hlast => hk (h.ended _ ?_)
  have hpeek := h.peek?_eq 0
  rw [peek?, Nat.add_zero, hlast, Nat.min_self] at hpeek
  rwa [List.getLast?_eq_getElem?]

theorem length_ahead_pos (h : s.Placed) : 0 < s.ahead.length := by
  rw [ahead, List.length_drop]
  exact Nat.sub_pos_of_lt h.inside

end Placed

structure Reaches (n : Nat) (s s' : ParserState) : Prop where
  tokens : s'.tokens = s.tokens
  depth : s'.depth = s.depth
  further : s.position + n ≤ s'.position
  inside : s'.position < s'.tokens.length

namespace Reaches

theorem refl (h : s.Placed) : s.Reaches 0 s := ⟨rfl, rfl, Nat.le_refl _, h.inside⟩

theorem placed (h : s.Reaches n s') (hs : s.Placed) : s'.Placed :=
  ⟨h.inside, h.tokens.symm ▸ hs.ended⟩

theorem weaken (h : s.Reaches n s') : s.Reaches 0 s' :=
  ⟨h.tokens, h.depth, Nat.le_trans (Nat.le_add_right _ _) h.further, h.inside⟩

theorem trans {m : Nat} (h : s.Reaches m s') (h' : s'.Reaches n s'') : s.Reaches (m + n) s'' where
  tokens := h'.tokens.trans h.tokens
  depth := h'.depth.trans h.depth
  further := by
    have := h.further
    have := h'.further
    omega
  inside := h'.inside

theorem advanced (h : s.Placed) : s.Reaches 0 s.advanced := by
  have hinside := h.inside
  obtain ⟨htokens, -, hdepth⟩ := s.advanced_same
  refine ⟨htokens, hdepth, Step.advanced.position_le, ?_⟩
  rw [htokens]
  unfold ParserState.advanced
  split
  · show s.position + 1 < s.tokens.length
    omega
  · exact hinside

theorem advanced_of_kind_ne (h : s.Placed) (hk : (s.peek 0).kind ≠ .eof) :
    s.Reaches 1 s.advanced := by
  refine { advanced h with further := ?_ }
  rw [ParserState.advanced, if_pos (h.lt_of_kind_ne hk)]

theorem length_ahead (h : s.Reaches n s') : s'.ahead.length + n ≤ s.ahead.length := by
  have hfurther := h.further
  have hinside := h.inside
  rw [ahead, ahead, List.length_drop, List.length_drop, h.tokens] at *
  omega

theorem rounds {fuel : Nat} (h : s.Reaches 1 s') (hfuel : s.ahead.length ≤ fuel + 1) :
    s'.ahead.length ≤ fuel :=
  Nat.le_of_succ_le_succ (Nat.le_trans h.length_ahead hfuel)

end Reaches

end ParserState

-- ---------------------------------------------------------------------------
-- Running without bounds
-- ---------------------------------------------------------------------------

namespace UnboundedParser

variable {α β : Type} {r r' : ParserRun}

theorem exec_bind (x : UnboundedParser α) (f : α → UnboundedParser β) (r : ParserRun) :
    (x >>= f).exec r =
      match x.exec r with
      | some (.ok a, r) => (f a).exec r
      | some (.error e, r) => some (.error e, r)
      | none => none := by
  simp only [exec, ExceptT.run_bind, StateT.run_bind]
  rcases StateT.run (ExceptT.run x) r with _ | ⟨_ | _, _⟩ <;> rfl

theorem exec_finish (x : UnboundedParser α) (f : ParserState → ParserState) (r : ParserRun) :
    (finish x f).exec r = (x.exec r).map fun (outcome, r') => (outcome, r'.update f) := by
  show (x.exec r).bind _ = _
  rcases x.exec r with _ | ⟨outcome, r'⟩ <;> rfl

theorem exec_within (scope : Scope) (x : UnboundedParser α) (r : ParserRun) :
    (within scope x).exec r =
      (x.exec (r.update (.pushed scope))).map fun (outcome, r') =>
        (outcome, r'.update .popped) := by
  rw [within, exec_bind, ← exec_finish]
  rfl

theorem exec_deeper {x : UnboundedParser α} (h : r.now.depth < maxDepth) :
    (deeper x).exec r =
      (x.exec (r.update .entered)).map fun (outcome, r') => (outcome, r'.update .left) := by
  rw [deeper, exec_bind, show state.exec r = some (.ok r.now, r) from rfl]
  dsimp only
  rw [if_neg (Nat.not_le.2 h), exec_bind, ← exec_finish]
  rfl

theorem exec_deeper_of_le {x : UnboundedParser α} (h : maxDepth ≤ r.now.depth) :
    (deeper x).exec r = (tooDeep : UnboundedParser α).exec r := by
  rw [deeper, exec_bind, show state.exec r = some (.ok r.now, r) from rfl]
  dsimp only
  rw [if_pos h]

namespace Gives

variable {x : Repeated → UnboundedParser α} {f : Repeated → α → UnboundedParser β}
  {e : ParseError}

theorem of_exec {x : UnboundedParser α} {answer : Except ParseError α × ParserRun}
    (h : x.exec r = some answer) :
    Gives (fun _ => x) r answer := ⟨0, fun _ _ => h⟩

theorem bind {a : α} {answer : Except ParseError β × ParserRun} (hx : Gives x r (.ok a, r'))
    (hf : Gives (fun again => f again a) r' answer) :
    Gives (fun again => x again >>= f again) r answer := by
  obtain ⟨m, hx⟩ := hx
  obtain ⟨n, hf⟩ := hf
  refine ⟨max m n, fun k hk => ?_⟩
  rw [exec_bind, hx k (Nat.le_trans (Nat.le_max_left m n) hk)]
  exact hf k (Nat.le_trans (Nat.le_max_right m n) hk)

theorem bind_error (hx : Gives x r (.error e, r')) :
    Gives (fun again => x again >>= f again) r (.error e, r') := by
  obtain ⟨m, hx⟩ := hx
  refine ⟨m, fun k hk => ?_⟩
  rw [exec_bind, hx k hk]

theorem again {answer : Except ParseError α × ParserRun}
    (h : Gives (fun again => x again.next) r answer) : Gives x r answer := by
  obtain ⟨bound, h⟩ := h
  refine ⟨bound + 1, fun n hn => ?_⟩
  obtain ⟨n, rfl⟩ := Nat.exists_eq_add_of_le' (Nat.le_trans (Nat.le_add_left 1 bound) hn)
  exact h n (Nat.le_of_succ_le_succ hn)

end Gives

/-- From a state at some depth the parser without bounds answers as the other one does, and a
success is at least `n` tokens further on. -/
def Follows (depth n : Nat) (x : Repeated → UnboundedParser α) (y : StackParser α)
    (r : ParserRun) : Prop :=
  r.now.Placed → r.now.depth = depth →
    ∃ outcome r', Gives x r (outcome, r') ∧ y.exec r = (outcome, r') ∧
      r.now.Reaches 0 r'.now ∧ ∀ a, outcome = .ok a → r.now.position + n ≤ r'.now.position

namespace Follows

variable {depth m n : Nat} {x : Repeated → UnboundedParser α} {y : StackParser α}
  {f : Repeated → α → UnboundedParser β} {g : α → StackParser β}

theorem pure (a : α) : Follows depth 0 (fun _ => pure a) (pure a) r :=
  fun hr _ => ⟨.ok a, r, .of_exec rfl, rfl, .refl hr, fun _ _ => Nat.le_refl _⟩

theorem throw (e : ParseError) :
    Follows depth n (fun _ => (throw e : UnboundedParser α)) (throw e) r :=
  fun hr _ => ⟨.error e, r, .of_exec rfl, rfl, .refl hr, fun _ h => by cases h⟩

theorem again (h : Follows depth n (fun again => x again.next) y r) : Follows depth n x y r := by
  intro hr hdepth
  obtain ⟨outcome, r', hx, hrest⟩ := h hr hdepth
  exact ⟨outcome, r', hx.again, hrest⟩

theorem bind_add (h : Follows depth m x y r)
    (hf : ∀ a r', r.now.Reaches m r'.now → Follows depth n (fun again => f again a) (g a) r') :
    Follows depth (m + n) (fun again => x again >>= f again) (y >>= g) r := by
  intro hr hdepth
  obtain ⟨outcome, r₁, hx, hy, hreach, hfurther⟩ := h hr hdepth
  rw [StackParser.exec_bind, hy]
  cases outcome with
  | error e => exact ⟨.error e, r₁, hx.bind_error, rfl, hreach, fun _ h => by cases h⟩
  | ok a =>
    have hm : r.now.Reaches m r₁.now := { hreach with further := hfurther a rfl }
    obtain ⟨outcome, r₂, hfx, hgy, hreach', hfurther'⟩ :=
      hf a r₁ hm (hm.placed hr) (hm.depth.trans hdepth)
    refine ⟨outcome, r₂, hx.bind hfx, hgy, hreach.trans hreach', fun b hb => ?_⟩
    have := hfurther' b hb
    have := hm.further
    omega

theorem bind (h : Follows depth n x y r)
    (hf : ∀ a r', r.now.Reaches n r'.now → Follows depth 0 (fun again => f again a) (g a) r') :
    Follows depth n (fun again => x again >>= f again) (y >>= g) r := h.bind_add hf

theorem before (h : Follows depth 0 x y r)
    (hf : ∀ a r', r.now.Reaches 0 r'.now → Follows depth n (fun again => f again a) (g a) r') :
    Follows depth n (fun again => x again >>= f again) (y >>= g) r :=
  Nat.zero_add n ▸ h.bind_add hf

theorem map {f : α → β} (h : Follows depth n x y r) :
    Follows depth n (fun again => do return f (← x again)) (do return f (← y)) r :=
  h.bind fun a _ _ => pure (f a)

theorem weaken (h : Follows depth n x y r) : Follows depth 0 x y r := by
  intro hr hdepth
  obtain ⟨outcome, r', hx, hy, hreach, -⟩ := h hr hdepth
  exact ⟨outcome, r', hx, hy, hreach, fun _ _ => hreach.further⟩

theorem ite {c : Prop} [Decidable c] {x' : Repeated → UnboundedParser α} {y' : StackParser α}
    (h : c → Follows depth n x y r) (h' : ¬ c → Follows depth n x' y' r) :
    Follows depth n (fun again => if c then x again else x' again) (if c then y else y') r := by
  by_cases hc : c
  · simpa only [if_pos hc] using h hc
  · simpa only [if_neg hc] using h' hc

theorem seen {x : UnboundedParser α} {a : α} (hx : r.now.Placed → x.exec r = some (.ok a, r))
    (hy : y.exec r = (.ok a, r)) (hf : Follows depth n (fun again => f again a) (g a) r) :
    Follows depth n (fun again => x >>= f again) (y >>= g) r := by
  intro hr hdepth
  obtain ⟨outcome, r', hfx, hgy, hrest⟩ := hf hr hdepth
  refine ⟨outcome, r', (Gives.of_exec (hx hr)).bind hfx, ?_, hrest⟩
  rw [StackParser.exec_bind, hy]
  exact hgy

theorem current {f : Repeated → Token → UnboundedParser β} {g : Token → StackParser β}
    (hf : ∀ token, r.now.peek 0 = token →
      Follows depth n (fun again => f again token) (g token) r) :
    Follows depth n (fun again => UnboundedParser.current >>= f again)
      (StackParser.current >>= g) r :=
  seen (fun hr => congrArg (Option.map fun token => (Except.ok token, r))
    (hr.peek?_eq 0)) rfl (hf _ rfl)

theorem kind {f : Repeated → TokenKind → UnboundedParser β} {g : TokenKind → StackParser β}
    (hf : ∀ k, (r.now.peek 0).kind = k → Follows depth n (fun again => f again k) (g k) r) :
    Follows depth n (fun again => UnboundedParser.kind >>= f again) (StackParser.kind >>= g) r := by
  refine seen (fun hr => ?_) rfl (hf _ rfl)
  show ((r.now.peek? 0).map fun token => (Except.ok token, r)).bind _ = _
  rw [hr.peek?_eq]
  rfl

theorem nextKind {f : Repeated → TokenKind → UnboundedParser β}
    {g : TokenKind → StackParser β}
    (hf : ∀ k, Follows depth n (fun again => f again k) (g k) r) :
    Follows depth n (fun again => UnboundedParser.nextKind >>= f again)
      (StackParser.nextKind >>= g) r := by
  refine seen (fun hr => ?_) rfl (hf (r.now.peek 1).kind)
  show ((r.now.peek? 1).map fun token => (Except.ok token, r)).bind _ = _
  rw [hr.peek?_eq]
  rfl

theorem rounds {x : Repeated → UnboundedParser β} {g : Nat → StackParser β}
    (hg : ∀ fuel, r.now.ahead.length ≤ fuel → Follows depth n x (g fuel) r) :
    Follows depth n x (StackParser.rounds >>= g) r := by
  intro hr hdepth
  rw [StackParser.exec_bind, show StackParser.rounds.exec r = (.ok r.now.ahead.length, r) from rfl]
  exact hg _ (Nat.le_refl _) hr hdepth

theorem state {f : Repeated → ParserState → UnboundedParser β}
    {g : ParserState → StackParser β}
    (hf : ∀ s, s.depth = depth → Follows depth n (fun again => f again s) (g s) r) :
    Follows depth n (fun again => UnboundedParser.state >>= f again) (StackParser.state >>= g) r :=
  fun hr hdepth => seen (fun _ => rfl) rfl (hf r.now hdepth) hr hdepth

theorem unexpected :
    Follows depth n (fun _ => (UnboundedParser.unexpected : UnboundedParser α))
      StackParser.unexpected r :=
  current fun token _ => throw (.unexpected token)

theorem tooDeep :
    Follows depth n (fun _ => (UnboundedParser.tooDeep : UnboundedParser α))
      StackParser.tooDeep r :=
  current fun token _ => throw (.tooDeep maxDepth token.position)

theorem advance : Follows depth 0 (fun _ => UnboundedParser.advance) StackParser.advance r :=
  fun hr _ => ⟨.ok (), _, .of_exec rfl, rfl, .advanced hr,
    fun _ _ => (ParserState.Reaches.advanced hr).further⟩

theorem take (hk : (r.now.peek 0).kind ≠ .eof) :
    Follows depth 1 (fun _ => UnboundedParser.advance) StackParser.advance r :=
  fun hr _ => ⟨.ok (), _, .of_exec rfl, rfl, .advanced hr,
    fun _ _ => (ParserState.Reaches.advanced_of_kind_ne hr hk).further⟩

theorem expect {k : TokenKind} (hk : k ≠ .eof) :
    Follows depth 1 (fun _ => UnboundedParser.expect k) (StackParser.expect k) r := by
  unfold UnboundedParser.expect StackParser.expect
  refine kind fun k' hkind => .ite (fun heq => take ?_) fun _ => unexpected
  rwa [hkind, heq]

theorem expectEnd :
    Follows depth 0 (fun _ => UnboundedParser.expectEnd) StackParser.expectEnd r := by
  unfold UnboundedParser.expectEnd StackParser.expectEnd
  exact kind fun k _ => state fun s _ => .ite (fun _ => pure ()) fun _ => unexpected

theorem within {scope : Scope} (h : ∀ r, Follows depth n x y r) :
    Follows depth n (fun again => UnboundedParser.within scope (x again))
      (StackParser.within scope y) r := by
  intro hr hdepth
  obtain ⟨outcome, r', ⟨bound, hx⟩, hy, hreach, hfurther⟩ :=
    h (r.update (.pushed scope)) ⟨hr.inside, hr.ended⟩ hdepth
  refine ⟨outcome, r'.update .popped, ⟨bound, fun k hk => ?_⟩, ?_,
    ⟨hreach.tokens, hreach.depth, hreach.further, hreach.inside⟩, hfurther⟩
  · rw [exec_within, hx k hk, Option.map_some]
  · rw [StackParser.exec_within, hy]

theorem deeper (hlt : depth < maxDepth) (h : ∀ r, Follows (depth + 1) n x y r) :
    Follows depth n (fun again => UnboundedParser.deeper (x again)) (StackParser.deeper y) r := by
  intro hr hdepth
  obtain ⟨outcome, r', ⟨bound, hx⟩, hy, hreach, hfurther⟩ :=
    h (r.update .entered) ⟨hr.inside, hr.ended⟩ (congrArg (· + 1) hdepth)
  refine ⟨outcome, r'.update .left, ⟨bound, fun k hk => ?_⟩, ?_,
    ⟨hreach.tokens, congrArg (· - 1) hreach.depth, hreach.further, hreach.inside⟩, hfurther⟩
  · rw [exec_deeper (hdepth ▸ hlt), hx k hk, Option.map_some]
  · rw [StackParser.exec_deeper (hdepth ▸ hlt), hy]

theorem deepest (hle : maxDepth ≤ depth) :
    Follows depth n (fun again => UnboundedParser.deeper (x again)) (StackParser.deeper y) r := by
  intro hr hdepth
  have hfollows : Follows depth n (fun _ => (UnboundedParser.tooDeep : UnboundedParser α))
      StackParser.tooDeep r :=
    tooDeep
  obtain ⟨outcome, r', ⟨bound, hx⟩, hrest⟩ := hfollows hr hdepth
  refine ⟨outcome, r', ⟨bound, fun k hk => ?_⟩, ?_⟩
  · rw [exec_deeper_of_le (hdepth ▸ hle)]
    exact hx k hk
  · rwa [StackParser.exec_deeper_of_le (hdepth ▸ hle)]

end Follows

end UnboundedParser

end DocSelect
