import DocSelect.Token.Basic

/-!
# Matched brackets

Brackets are matched if each is closed by one of its own kind and those between the two are matched
among themselves. Going over the tokens from the left with a stack of the brackets that are still to
be closed decides it.
-/
namespace DocSelect

namespace TokenKind

def closing? : TokenKind → Option TokenKind
  | openParen => some closeParen
  | openBracket => some closeBracket
  | openBrace => some closeBrace
  | _ => none

def isBracket (k : TokenKind) : Bool :=
  [openParen, closeParen, openBracket, closeBracket, openBrace, closeBrace].contains k

end TokenKind

open TokenKind

/-- The brackets among these kinds of tokens are closed in the order in which they were opened. -/
inductive Matched : List TokenKind → Prop
  | nil : Matched []
  | token {k : TokenKind} {rest : List TokenKind} (h : k.isBracket = false) (hrest : Matched rest) :
    Matched (k :: rest)
  | brackets {opening close : TokenKind} {inner rest : List TokenKind}
    (h : opening.closing? = some close) (hinner : Matched inner) (hrest : Matched rest) :
    Matched (opening :: (inner ++ close :: rest))

def pending (stack : List TokenKind) (k : TokenKind) : Option (List TokenKind) :=
  if k.isBracket then
    match k.closing?, stack with
    | some close, stack => some (close :: stack)
    | none, close :: rest => if k = close then some rest else none
    | none, [] => none
  else some stack

def pendingAfter (stack : List TokenKind) (kinds : List TokenKind) : Option (List TokenKind) :=
  kinds.foldlM pending stack

variable {stack before mid after kinds more inner rest : List TokenKind} {k close : TokenKind}

@[simp] theorem pendingAfter_nil (stack : List TokenKind) :
    pendingAfter stack [] = some stack := rfl

@[simp] theorem pendingAfter_cons (stack : List TokenKind) (k : TokenKind)
    (kinds : List TokenKind) :
    pendingAfter stack (k :: kinds) = (pending stack k).bind (pendingAfter · kinds) := rfl

theorem pending_of_not_bracket (h : k.isBracket = false) (stack : List TokenKind) :
    pending stack k = some stack := by
  simp [pending, h]

theorem pending_of_closing? (h : k.closing? = some close) (stack : List TokenKind) :
    pending stack k = some (close :: stack) ∧ pending (close :: stack) close = some stack := by
  unfold closing? at h
  split at h <;> cases h <;> exact ⟨rfl, rfl⟩

theorem pending_cases (h : pending before k = some after) :
    (k.isBracket = false ∧ after = before) ∨
      (∃ close, k.closing? = some close ∧ after = close :: before) ∨
      before = k :: after := by
  unfold pending at h
  split at h
  · split at h
    · rename_i close hclose
      cases h
      exact .inr (.inl ⟨close, hclose, rfl⟩)
    · split at h
      · rename_i heq
        cases h
        exact .inr (.inr (heq ▸ rfl))
      · cases h
    · cases h
  · rename_i hk
    cases h
    exact .inl ⟨by simpa using hk, rfl⟩

theorem pendingAfter_append (h : pendingAfter before kinds = some mid)
    (h' : pendingAfter mid more = some after) :
    pendingAfter before (kinds ++ more) = some after := by
  rw [pendingAfter, List.foldlM_append, ← pendingAfter, h]
  exact h'

/-- With these brackets to be closed, the tokens close them one after the other, and are matched
between that. -/
def Closes : List TokenKind → List TokenKind → Prop
  | [], kinds => Matched kinds
  | close :: stack, kinds =>
    ∃ inner rest, kinds = inner ++ close :: rest ∧ Matched inner ∧ Closes stack rest

theorem Closes.token (hk : k.isBracket = false) (h : Closes stack kinds) :
    Closes stack (k :: kinds) := by
  cases stack with
  | nil => exact .token hk h
  | cons close stack =>
    obtain ⟨inner, rest, rfl, hinner, hrest⟩ := h
    exact ⟨k :: inner, rest, rfl, .token hk hinner, hrest⟩

theorem Closes.brackets (hk : k.closing? = some close) (h : Closes (close :: stack) kinds) :
    Closes stack (k :: kinds) := by
  obtain ⟨inner, rest, rfl, hinner, hrest⟩ := h
  cases stack with
  | nil => exact .brackets hk hinner hrest
  | cons other stack =>
    obtain ⟨inner', rest, rfl, hinner', hrest⟩ := hrest
    exact ⟨k :: (inner ++ close :: inner'), rest, by simp, .brackets hk hinner hinner', hrest⟩

theorem closes_of_pendingAfter (h : pendingAfter stack kinds = some []) : Closes stack kinds := by
  induction kinds generalizing stack with
  | nil =>
    cases h
    exact .nil
  | cons k kinds ih =>
    obtain ⟨next, hnext, hrest⟩ := Option.bind_eq_some_iff.1 h
    obtain ⟨hk, rfl⟩ | ⟨close, hk, rfl⟩ | rfl := pending_cases hnext
    · exact (ih hrest).token hk
    · exact (ih hrest).brackets hk
    · exact ⟨[], kinds, rfl, .nil, ih hrest⟩

theorem Matched.pendingAfter_eq (h : Matched kinds) (stack : List TokenKind) :
    pendingAfter stack kinds = some stack := by
  induction h generalizing stack with
  | nil => rfl
  | token hk _ ih => rw [pendingAfter_cons, pending_of_not_bracket hk, Option.bind_some, ih]
  | brackets hk _ _ ihinner ihrest =>
    obtain ⟨hopen, hclose⟩ := pending_of_closing? hk stack
    rw [pendingAfter_cons, hopen, Option.bind_some]
    refine pendingAfter_append (ihinner _) ?_
    rw [pendingAfter_cons, hclose, Option.bind_some, ihrest]

theorem matched_iff : Matched kinds ↔ pendingAfter [] kinds = some [] :=
  ⟨fun h => h.pendingAfter_eq [], closes_of_pendingAfter⟩

instance : DecidablePred Matched := fun _ => decidable_of_iff _ matched_iff.symm

end DocSelect
