import DocSelect.Proofs.Nesting.Height
import DocSelect.Proofs.Precedence.Parsing

/-!
# Paying for levels with tokens

A tally counts the tokens of some kinds that a cursor has still to pass. Parsers are bounded against
it: a tree may be higher by as many levels as counted tokens were taken for it.
-/
namespace DocSelect

namespace Cursor

def Ended (c : Cursor) : Prop := ∀ t ∈ c.toList.getLast?, t.kind = .eof

variable {c : Cursor}

theorem Ended.advance (h : c.Ended) : c.advance.Ended := by
  unfold Cursor.advance
  split
  · exact h
  · rename_i hrest
    rw [Ended, toList, hrest, List.getLast?_cons_cons] at h
    exact h

theorem Ended.kind_eq (h : c.Ended) (hrest : c.rest = []) : c.kind = .eof := by
  refine h _ ?_
  rw [toList, hrest]
  rfl

structure EndsOnce (c : Cursor) : Prop where
  ended : c.Ended
  inside : ∀ t ∈ c.toList.dropLast, t.kind ≠ .eof

theorem EndsOnce.rest_eq_nil (h : c.EndsOnce) (hk : c.kind = .eof) : c.rest = [] := by
  obtain ⟨current, rest⟩ := c
  cases rest with
  | nil => rfl
  | cons next rest => exact absurd hk (h.inside current (by simp [toList]))

theorem EndsOnce.advance (h : c.EndsOnce) : c.advance.EndsOnce := by
  refine ⟨h.ended.advance, ?_⟩
  obtain ⟨current, rest⟩ := c
  cases rest with
  | nil => exact h.inside
  | cons next rest => exact fun t ht => h.inside t (List.mem_cons_of_mem _ ht)

theorem ended_ofTokens (tokens : List Token) : (ofTokens tokens).Ended := by
  have hlast : ∀ t ∈ (ended tokens).getLast?, t.kind = .eof := by
    unfold ended
    split
    · rintro _ ⟨⟩
      rfl
    · rename_i last hlast
      split
      · rename_i heof
        rw [hlast]
        rintro _ ⟨⟩
        exact heof
      · rw [List.getLast?_concat]
        rintro _ ⟨⟩
        rfl
  unfold ofTokens
  split
  · rintro _ ⟨⟩
    rfl
  · rename_i hcons
    rw [hcons] at hlast
    exact hlast

theorem toList_ofTokens (tokens : List Token) : (ofTokens tokens).toList = ended tokens := by
  unfold ofTokens
  split
  · rename_i hnil
    unfold ended at hnil
    split at hnil
    · cases hnil
    · split at hnil
      · rename_i hlast _
        rw [hnil] at hlast
        cases hlast
      · simp at hnil
  · rename_i hcons
    rw [hcons, toList]

theorem ended_of_getLast? {t : Token} (h : tokens.getLast? = some t) (ht : t.kind = .eof) :
    ended tokens = tokens := by
  unfold ended
  rw [h]
  exact if_pos ht

end Cursor

structure Tally where
  counted : TokenKind → Bool
  share : Nat
  eof : counted .eof = false
  elseIf : counted (.keyword .elseIf) = true
  operator {k : TokenKind} : (BindingPower.ofToken? k).isSome = true →
    counted k = true ∨ 1 ≤ share

namespace Tally

def ofConditions : Tally where
  counted k := k == .keyword .elseIf
  share := 1
  eof := rfl
  elseIf := rfl
  operator _ := .inr (Nat.le_refl 1)

def ofAll : Tally where
  counted k := k == .keyword .elseIf || (BindingPower.ofToken? k).isSome
  share := 0
  eof := rfl
  elseIf := rfl
  operator h := .inl (by rw [h, Bool.or_true])

variable (t : Tally)

def count (tokens : List Token) : Nat := tokens.countP fun x => t.counted x.kind

def ahead (c : Cursor) : Nat := t.count c.toList

def weight (k : TokenKind) : Nat := if t.counted k then 1 else 0

theorem count_cons (x : Token) (xs : List Token) :
    t.count (x :: xs) = t.count xs + t.weight x.kind :=
  List.countP_cons

theorem ahead_advance {c : Cursor} (h : c.Ended) :
    t.ahead c.advance + t.weight c.kind ≤ t.ahead c := by
  unfold Cursor.advance
  split
  · rename_i hrest
    rw [h.kind_eq hrest, weight, t.eof]
    exact Nat.le_refl _
  · rename_i next rest hrest
    rw [ahead, ahead, Cursor.toList.eq_1 c, hrest, count_cons]
    exact Nat.le_refl _

theorem ahead_ofTokens (tokens : List Token) :
    t.ahead (Cursor.ofTokens tokens) = t.count tokens := by
  have hstop (position : Nat) : t.counted (Token.atEnd position).kind = false := t.eof
  have hended : t.count (Cursor.ended tokens) = t.count tokens := by
    unfold Cursor.ended
    split
    · rename_i hlast
      rw [List.getLast?_eq_none_iff.1 hlast, count, count, List.countP_singleton, hstop]
      rfl
    · split
      · rfl
      · rw [count, List.countP_append, List.countP_singleton, hstop]
        rfl
  unfold Cursor.ofTokens
  split
  · rename_i hnil
    rw [← hended, hnil, ahead, Cursor.toList, count, List.countP_singleton, hstop]
    rfl
  · rename_i hcons
    rw [← hended, hcons]
    rfl

/-- Where a parser succeeds, no token comes back, and the result and the place reached are as `Q`
says. -/
def Bounds {α : Type} (x : Parser α) (c : Cursor) (Q : α → Cursor → Prop) : Prop :=
  c.Ended → ∀ r c', x.exec c = (.ok r, c') → c'.Ended ∧ t.ahead c' ≤ t.ahead c ∧ Q r c'

namespace Bounds

open DocSelect.Parser

variable {t} {α β : Type} {x : Parser α} {c : Cursor} {Q Q' : α → Cursor → Prop}

theorem of_exec {r : α} (h : x.exec c = (.ok r, c)) (hQ : Q r c) : t.Bounds x c Q := by
  intro hc r' c' h'
  rw [h] at h'
  cases h'
  exact ⟨hc, Nat.le_refl _, hQ⟩

theorem pure {r : α} (hQ : Q r c) : t.Bounds (pure r) c Q := of_exec rfl hQ

theorem throw (e : ParseError) : t.Bounds (throw e : Parser α) c Q := fun _ _ _ h => by cases h

theorem unexpected : t.Bounds (unexpected : Parser α) c Q := fun _ _ _ h => by cases h

theorem tooDeep : t.Bounds (tooDeep : Parser α) c Q := fun _ _ _ h => by cases h

theorem mono (h : t.Bounds x c Q) (hQ : ∀ r c', t.ahead c' ≤ t.ahead c → Q r c' → Q' r c') :
    t.Bounds x c Q' := fun hc r c' hx =>
  let ⟨hc', hle, hr⟩ := h hc r c' hx
  ⟨hc', hle, hQ r c' hle hr⟩

theorem bind {f : α → Parser β} {S : β → Cursor → Prop} (h : t.Bounds x c Q)
    (hf : ∀ r c', t.ahead c' ≤ t.ahead c → Q r c' → t.Bounds (f r) c' S) :
    t.Bounds (x >>= f) c S := by
  intro hc r c' hx
  rw [exec_bind] at hx
  rcases hfirst : x.exec c with ⟨e | a, c₁⟩ <;> rw [hfirst] at hx
  · cases hx
  · obtain ⟨hc₁, hle, ha⟩ := h hc a c₁ hfirst
    obtain ⟨hc', hle', hr⟩ := hf a c₁ hle ha hc₁ r c' hx
    exact ⟨hc', Nat.le_trans hle' hle, hr⟩

theorem look {f : α → Parser β} {S : β → Cursor → Prop} {r : α}
    (h : x.exec c = (.ok r, c)) (hf : t.Bounds (f r) c S) : t.Bounds (x >>= f) c S :=
  bind (Q := fun r' c' => r' = r ∧ c' = c) (of_exec h ⟨rfl, rfl⟩)
    (by rintro _ _ - ⟨rfl, rfl⟩; exact hf)

theorem advance : t.Bounds advance c fun _ c' => t.ahead c' + t.weight c.kind ≤ t.ahead c := by
  intro hc _ _ h
  cases h
  have hle := t.ahead_advance hc
  exact ⟨hc.advance, by omega, hle⟩

theorem expect (k : TokenKind) : t.Bounds (expect k) c fun _ _ => True := by
  unfold Parser.expect
  refine look (exec_kind c) ?_
  split
  · exact advance.mono fun _ _ _ _ => trivial
  · exact unexpected

theorem expectEnd (scope : Scope) : t.Bounds (expectEnd scope) c fun _ c' => c' = c := by
  unfold Parser.expectEnd
  refine look (exec_kind c) ?_
  split
  · exact pure rfl
  · exact unexpected

end Bounds

end Tally

end DocSelect
