import DocSelect.Proofs.Nesting.Tally

/-!
# Parsing the same tokens in another place

A run of tokens that ends one input may stand in another one, where something else comes after it. A
parser mirrors another one if it gives the same result there, as long as the two take the same
tokens. What comes after the run has to be a token that may end an expression, and then no
production tells it from the end of the input.
-/
namespace DocSelect

open DocSelect.Parser

-- ---------------------------------------------------------------------------
-- What may end an expression
-- ---------------------------------------------------------------------------

def TokenKind.Ends (k : TokenKind) : Prop := ∃ scope : Scope, k ∈ scope.terminators

theorem TokenKind.Ends.cases {k : TokenKind} (h : k.Ends) :
    k = .eof ∨ k = .semicolon ∨ k = .comma ∨ k = .closeParen ∨ k = .closeBracket ∨
      k = .closeBrace ∨ k = .colon := by
  obtain ⟨scope, h⟩ := h
  cases scope <;> grind [Scope.terminators]

theorem TokenKind.Ends.ne_openParen {k : TokenKind} (h : k.Ends) : k ≠ .openParen := by
  rintro rfl
  simpa using h.cases

-- ---------------------------------------------------------------------------
-- Outcomes
-- ---------------------------------------------------------------------------

/-- The outcome of a parser is the expected one, and a result leaves it at a place as `Q` says; or
the parser finds that expressions nest too deep. -/
def Parser.Gives {α : Type} (x : Parser α) (c : Cursor) (expected : Except ParseError α)
    (Q : Cursor → Prop) : Prop :=
  match x.exec c with
  | (.ok r, c') => expected = .ok r ∧ Q c'
  | (.error e, _) => expected = .error e ∨ ∃ position, e = .tooDeep maxDepth position

namespace Parser.Gives

variable {α β : Type} {x : Parser α} {c c' : Cursor} {expected : Except ParseError α}
  {Q Q' : Cursor → Prop}

theorem of_exec {r : α} (h : x.exec c = (.ok r, c')) (hQ : Q c') : x.Gives c (.ok r) Q := by
  unfold Gives
  rw [h]
  exact ⟨rfl, hQ⟩

theorem pure {r : α} (hQ : Q c) : (pure r : Parser α).Gives c (.ok r) Q := of_exec rfl hQ

theorem unexpected : (unexpected : Parser α).Gives c (.error (.unexpected c.current)) Q := .inl rfl

theorem tooDeep : (tooDeep : Parser α).Gives c expected Q := .inr ⟨_, rfl⟩

theorem mono (h : x.Gives c expected Q) (hQ : ∀ c', Q c' → Q' c') : x.Gives c expected Q' := by
  unfold Gives at h ⊢
  rcases hx : x.exec c with ⟨e | r, c'⟩ <;> rw [hx] at h
  · exact h
  · exact ⟨h.1, hQ c' h.2⟩

theorem bind {f : α → Parser β} {g : α → Except ParseError β} {S : Cursor → Prop}
    (h : x.Gives c expected Q)
    (hf : ∀ r c', expected = .ok r → Q c' → (f r).Gives c' (g r) S) :
    (x >>= f).Gives c (expected >>= g) S := by
  unfold Gives at h
  unfold Gives
  rw [exec_bind]
  rcases hx : x.exec c with ⟨e | r, c'⟩ <;> rw [hx] at h
  · rcases h with rfl | h
    · exact .inl rfl
    · exact .inr h
  · obtain ⟨rfl, hQ⟩ := h
    exact hf r c' rfl hQ

theorem bind_ok {f : α → Parser β} {expected : Except ParseError β} {S : Cursor → Prop}
    {r : α} (h : x.Gives c (.ok r) Q) (hf : ∀ c', Q c' → (f r).Gives c' expected S) :
    (x >>= f).Gives c expected S := by
  unfold Gives at h
  unfold Gives
  rw [exec_bind]
  rcases hx : x.exec c with ⟨e | r', c'⟩ <;> rw [hx] at h
  · exact .inr (h.resolve_left fun h => by cases h)
  · obtain ⟨⟨⟩, hQ⟩ := h
    exact hf c' hQ

theorem bind_exec {f : α → Parser β} {expected : Except ParseError β} {S : Cursor → Prop}
    {r : α} (h : x.exec c = (.ok r, c')) (hf : (f r).Gives c' expected S) :
    (x >>= f).Gives c expected S :=
  bind_ok (Q := (· = c')) (of_exec h rfl) fun _ heq => heq ▸ hf

theorem map {f : α → β} (h : x.Gives c expected Q) :
    (do return f (← x) : Parser β).Gives c (expected.map f) Q := by
  have hmap := h.bind (g := fun r => .ok (f r)) fun r c' _ hQ => pure (r := f r) hQ
  cases expected <;> exact hmap

theorem bind_same {f : α → Parser α} {S : Cursor → Prop} (h : x.Gives c expected Q)
    (hf : ∀ r c', expected = .ok r → Q c' → (f r).Gives c' (.ok r) S) :
    (x >>= f).Gives c expected S := by
  have hsame := h.bind (g := .ok) hf
  cases expected <;> exact hsame

end Parser.Gives

-- ---------------------------------------------------------------------------
-- Places with the same tokens ahead
-- ---------------------------------------------------------------------------

/-- The same tokens are ahead of two places, up to where the first input ends and the second one has
come to `d`. Where in the input a token was read makes no difference. -/
inductive Beside (d : Cursor) : Cursor → Cursor → Prop
  | stop {t : Token} (hkind : t.kind = .eof) : Beside d ⟨t, []⟩ d
  | token {t u : Token} {c₀ c : Cursor} (hne : t.kind ≠ .eof) (hkind : u.kind = t.kind)
    (hvalue : u.value = t.value) (h : Beside d c₀ c) : Beside d ⟨t, c₀.toList⟩
      ⟨u, c.toList⟩

namespace Beside

variable {d c₀ c : Cursor}

theorem eq_of_eof (h : Beside d c₀ c) (heof : c₀.kind = .eof) : c = d := by
  cases h with
  | stop => rfl
  | token hne => exact absurd heof hne

theorem kind_eq (h : Beside d c₀ c) (hne : c₀.kind ≠ .eof) : c.kind = c₀.kind := by
  cases h with
  | stop hkind => exact absurd hkind hne
  | token _ hkind => exact hkind

theorem value_eq (h : Beside d c₀ c) (hne : c₀.kind ≠ .eof) :
    c.current.value = c₀.current.value := by
  cases h with
  | stop hkind => exact absurd hkind hne
  | token _ _ hvalue => exact hvalue

theorem advance (h : Beside d c₀ c) (hne : c₀.kind ≠ .eof) :
    Beside d c₀.advance c.advance := by
  cases h with
  | stop hkind => exact absurd hkind hne
  | token _ _ _ h => exact h

theorem nextKind (h : Beside d c₀ c) (hne : c₀.kind ≠ .eof) :
    c.nextKind = c₀.nextKind ∨
    (c₀.nextKind = .eof ∧ c₀.rest.length = 1 ∧ c.nextKind = d.kind) := by
  cases h with
  | stop hkind => exact absurd hkind hne
  | token _ _ _ h =>
    cases h with
    | stop hkind => exact .inr ⟨hkind, rfl, rfl⟩
    | token _ hkind => exact .inl hkind

theorem rest_length_le (h : Beside d c₀ c) : c₀.rest.length ≤ c.rest.length := by
  induction h with
  | stop => exact Nat.zero_le _
  | token _ _ _ _ ih => exact Nat.succ_le_succ ih

end Beside

theorem Cursor.EndsOnce.rest_length_advance {c : Cursor} (h : c.EndsOnce) (hne : c.kind ≠ .eof) :
    c.advance.rest.length < c.rest.length := by
  obtain ⟨current, rest⟩ := c
  cases rest with
  | nil => exact absurd (h.ended.kind_eq rfl) hne
  | cons next rest => exact Nat.lt_succ_self _

-- ---------------------------------------------------------------------------
-- Parsers side by side
-- ---------------------------------------------------------------------------

/-- Where the first parser succeeds, the second one gives the same result in a place beside it, and
takes the same tokens, unless the first one comes to a place of some sort. `Q` is about the result
and the place that the first one reaches. -/
def Parser.MirrorsUnless {α : Type} (halt : Cursor → Prop) (d : Cursor) (x y : Parser α)
    (c₀ : Cursor) (Q : α → Cursor → Prop) : Prop :=
  c₀.EndsOnce → ∀ r c₀', x.exec c₀ = (.ok r, c₀') → ¬ halt c₀' →
    c₀'.EndsOnce ∧ c₀'.rest.length ≤ c₀.rest.length ∧ Q r c₀' ∧
      ∀ c, Beside d c₀ c → y.Gives c (.ok r) (Beside d c₀')

abbrev Parser.Mirrors {α : Type} := @MirrorsUnless α fun _ => False

namespace Parser.MirrorsUnless

variable {α β : Type} {halt halt₁ : Cursor → Prop} {d : Cursor} {x y : Parser α}
  {c₀ : Cursor} {Q Q' : α → Cursor → Prop} {S : β → Cursor → Prop}

theorem pure {r : α} (hQ : Q r c₀) : MirrorsUnless halt d (pure r) (pure r) c₀ Q := by
  intro hc _ _ hx _
  cases hx
  exact ⟨hc, Nat.le_refl _, hQ, fun _ h => .pure h⟩

theorem refused (h : c₀.EndsOnce → ∀ r c₀', x.exec c₀ ≠ (.ok r, c₀')) :
    MirrorsUnless halt d x y c₀ Q :=
  fun hc r c₀' hx _ => absurd hx (h hc r c₀')

theorem throw (e : ParseError) : MirrorsUnless halt d (throw e : Parser α) y c₀ Q :=
  refused fun _ _ _ h => by cases h

theorem unexpected : MirrorsUnless halt d (unexpected : Parser α) y c₀ Q :=
  refused fun _ _ _ h => by cases h

theorem tooDeep : MirrorsUnless halt d (tooDeep : Parser α) y c₀ Q :=
  refused fun _ _ _ h => by cases h

theorem mono (h : MirrorsUnless halt d x y c₀ Q)
    (hQ : ∀ r c₀', c₀'.rest.length ≤ c₀.rest.length → Q r c₀' → Q' r c₀') :
    MirrorsUnless halt d x y c₀ Q' :=
  fun hc r c₀' hx hno =>
    let ⟨hc', hle, hr, hy⟩ := h hc r c₀' hx hno
    ⟨hc', hle, hQ r c₀' hle hr, hy⟩

theorem weaken (h : Mirrors d x y c₀ Q) : MirrorsUnless halt d x y c₀ Q :=
  fun hc r c₀' hx _ => h hc r c₀' hx id

theorem tooDeep_right (h : MirrorsUnless halt d x y c₀ Q) :
    MirrorsUnless halt d x (Parser.tooDeep : Parser α) c₀ Q :=
  fun hc r c₀' hx hno =>
    let ⟨hc', hle, hr, _⟩ := h hc r c₀' hx hno
    ⟨hc', hle, hr, fun _ _ => .tooDeep⟩

theorem bind_unless {f g : α → Parser β} (h : MirrorsUnless halt₁ d x y c₀ Q)
    (hhalts : ∀ r c₁ r' c₀', halt₁ c₁ →
      (f r).exec c₁ = (.ok r', c₀') → halt c₀')
    (hf : ∀ r c₀', c₀'.rest.length ≤ c₀.rest.length → Q r c₀' →
      MirrorsUnless halt d (f r) (g r) c₀' S) :
    MirrorsUnless halt d (x >>= f) (y >>= g) c₀ S := by
  intro hc r c₀' hx hno
  obtain ⟨a, c₁, hfirst, hrest⟩ := exec_bind_eq_ok_iff.1 hx
  obtain ⟨hc₁, hle, hQ, hy⟩ :=
    h hc a c₁ hfirst fun hhalt => hno (hhalts a c₁ r c₀' hhalt hrest)
  obtain ⟨hc', hle', hS, hg⟩ := hf a c₁ hle hQ hc₁ r c₀' hrest hno
  exact ⟨hc', Nat.le_trans hle' hle, hS, fun c hb => (hy c hb).bind_ok hg⟩

theorem bind {f g : α → Parser β} (h : Mirrors d x y c₀ Q)
    (hf : ∀ r c₀', c₀'.rest.length ≤ c₀.rest.length → Q r c₀' →
      MirrorsUnless halt d (f r) (g r) c₀' S) :
    MirrorsUnless halt d (x >>= f) (y >>= g) c₀ S :=
  h.bind_unless (fun _ _ _ _ hhalt _ => hhalt.elim) hf

theorem map {f : α → β} (h : MirrorsUnless halt d x y c₀ Q)
    (hf : ∀ r c₀', c₀'.rest.length ≤ c₀.rest.length → Q r c₀' → S (f r) c₀') :
    MirrorsUnless halt d (do return f (← x)) (do return f (← y)) c₀ S :=
  h.bind_unless (fun _ _ _ _ hhalt hx => by cases hx; exact hhalt) fun r c₀' hle hQ =>
    pure (hf r c₀' hle hQ)

theorem look {γ : Type} {x y : Parser γ} {z : Parser β} {f g : γ → Parser β} {a : γ}
    (hx : x.exec c₀ = (.ok a, c₀))
    (hleft : c₀.EndsOnce → MirrorsUnless halt d (f a) z c₀ S)
    (hy : c₀.EndsOnce → ∀ c, Beside d c₀ c →
      ∃ b, y.exec c = (.ok b, c) ∧ MirrorsUnless halt d (f a) (g b) c₀ S) :
    MirrorsUnless halt d (x >>= f) (y >>= g) c₀ S := by
  intro hc r c₀' hrun hno
  obtain ⟨a', c₁, hfirst, hrest⟩ := exec_bind_eq_ok_iff.1 hrun
  rw [hx] at hfirst
  cases hfirst
  obtain ⟨hc', hle, hS, -⟩ := hleft hc hc r c₀' hrest hno
  refine ⟨hc', hle, hS, fun c hb => ?_⟩
  obtain ⟨b, hyb, hmirrors⟩ := hy hc c hb
  exact .bind_exec hyb ((hmirrors hc r c₀' hrest hno).2.2.2 c hb)

theorem kind {f g : TokenKind → Parser β}
    (hf : c₀.kind ≠ .eof → MirrorsUnless halt d (f c₀.kind) (g c₀.kind) c₀ S)
    (hstop : c₀.kind = .eof → c₀.rest = [] →
      MirrorsUnless halt d (f .eof) (g d.kind) c₀ S) :
    MirrorsUnless halt d (Parser.kind >>= f) (Parser.kind >>= g) c₀ S := by
  by_cases heof : c₀.kind = .eof
  · refine look (exec_kind c₀) (fun hc =>
      heof ▸ hstop heof (hc.rest_eq_nil heof)) fun hc c hb => ?_
    rw [hb.eq_of_eof heof, heof]
    exact ⟨d.kind, exec_kind d, hstop heof (hc.rest_eq_nil heof)⟩
  · refine look (exec_kind c₀) (fun _ => hf heof) fun _ c hb => ⟨c.kind, exec_kind c, ?_⟩
    rw [hb.kind_eq heof]
    exact hf heof

theorem current {f g : Token → Parser β}
    (hf : c₀.kind ≠ .eof → ∀ u : Token, u.kind = c₀.current.kind →
      u.value = c₀.current.value → MirrorsUnless halt d (f c₀.current) (g u) c₀ S)
    (hstop : c₀.kind = .eof → c₀.rest = [] →
      MirrorsUnless halt d (f c₀.current) (g d.current) c₀ S) :
    MirrorsUnless halt d (Parser.current >>= f) (Parser.current >>= g) c₀ S := by
  by_cases heof : c₀.kind = .eof
  · refine look (exec_current c₀) (fun hc => hstop heof (hc.rest_eq_nil heof)) fun hc c hb => ?_
    rw [hb.eq_of_eof heof]
    exact ⟨d.current, exec_current d, hstop heof (hc.rest_eq_nil heof)⟩
  · refine look (exec_current c₀) (fun _ => hf heof _ rfl rfl) fun _ c hb => ?_
    refine ⟨c.current, exec_current c, ?_⟩
    exact hf heof c.current (hb.kind_eq heof) (hb.value_eq heof)

theorem nextKind {f g : TokenKind → Parser β} (hne : c₀.kind ≠ .eof)
    (hf : MirrorsUnless halt d (f c₀.nextKind) (g c₀.nextKind) c₀ S)
    (hstop : c₀.nextKind = .eof → c₀.rest.length = 1 →
      MirrorsUnless halt d (f .eof) (g d.kind) c₀ S) :
    MirrorsUnless halt d (Parser.nextKind >>= f) (Parser.nextKind >>= g) c₀ S := by
  refine look (exec_nextKind c₀) (fun _ => hf) fun _ c hb => ⟨c.nextKind, exec_nextKind c, ?_⟩
  rcases hb.nextKind hne with heq | ⟨heof, hlength, hd⟩
  · rw [heq]
    exact hf
  · rw [hd, heof]
    exact hstop heof hlength

/-- A decision about the next token. It may only turn out differently where the first input is
refused. -/
theorem ifNextKind {p : TokenKind → Prop} [DecidablePred p] {f f' g g' : Parser β}
    (hne : c₀.kind ≠ .eof) (hp : c₀.nextKind = .eof → c₀.rest.length = 1 →
      (p d.kind ↔ p .eof) ∨
        MirrorsUnless halt d (if p .eof then f else f') (if p d.kind then g else g') c₀ S)
    (hthen : p c₀.nextKind → MirrorsUnless halt d f g c₀ S)
    (helse : ¬ p c₀.nextKind → MirrorsUnless halt d f' g' c₀ S) :
    MirrorsUnless halt d (Parser.nextKind >>= fun k => if p k then f else f')
      (Parser.nextKind >>= fun k => if p k then g else g') c₀ S := by
  have hboth (k : TokenKind) (hk : p k ↔ p c₀.nextKind) :
      MirrorsUnless halt d (if p c₀.nextKind then f else f') (if p k then g else g') c₀ S := by
    by_cases h : p c₀.nextKind
    · rw [if_pos h, if_pos (hk.2 h)]
      exact hthen h
    · rw [if_neg h, if_neg (mt hk.1 h)]
      exact helse h
  refine nextKind hne (hboth _ Iff.rfl) fun heof hlength => ?_
  rcases hp heof hlength with hk | h
  · exact heof ▸ hboth d.kind (heof ▸ hk)
  · exact h

theorem rounds {f g : Nat → Parser β}
    (hf : ∀ n, c₀.rest.length < n →
      MirrorsUnless halt d (f (c₀.rest.length + 1)) (g n) c₀ S) :
    MirrorsUnless halt d (Parser.rounds >>= f) (Parser.rounds >>= g) c₀ S :=
  look (exec_rounds c₀) (fun _ => hf _ (Nat.lt_succ_self _)) fun _ c hb =>
    ⟨c.rest.length + 1, exec_rounds c, hf _ (Nat.lt_succ_of_le hb.rest_length_le)⟩

theorem take {f g : Unit → Parser β} (hne : c₀.kind ≠ .eof)
    (hf : c₀.advance.rest.length < c₀.rest.length →
      MirrorsUnless halt d (f ()) (g ()) c₀.advance S) :
    MirrorsUnless halt d (Parser.advance >>= f) (Parser.advance >>= g) c₀ S := by
  intro hc r c₀' hx hno
  obtain ⟨_, _, hadvance, hrest⟩ := exec_bind_eq_ok_iff.1 hx
  cases hadvance
  have hlt := hc.rest_length_advance hne
  obtain ⟨hc', hle, hS, hg⟩ := hf hlt hc.advance r c₀' hrest hno
  refine ⟨hc', Nat.le_trans hle (Nat.le_of_lt hlt), hS, fun c hb => ?_⟩
  exact .bind_exec (exec_advance c) (hg _ (hb.advance hne))

theorem expect {k : TokenKind} (hk : k ≠ .eof) :
    MirrorsUnless halt d (expect k) (expect k) c₀ fun _ c₀' => c₀'.rest.length <
      c₀.rest.length := by
  unfold Parser.expect
  refine kind (fun hne => ?_) fun _ _ => ?_
  · split
    · rw [← bind_pure Parser.advance]
      exact take hne fun hlt => pure hlt
    · exact unexpected
  · rw [if_neg hk.symm]
    exact unexpected

end Parser.MirrorsUnless

end DocSelect
