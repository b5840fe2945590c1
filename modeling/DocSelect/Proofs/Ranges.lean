import DocSelect.Eval.Builtin.Collection
import DocSelect.Eval.Calls
import DocSelect.Proofs.Alike.Store
import DocSelect.Proofs.Execution
import DocSelect.Proofs.Soundness.Store

/-!
# What ranges take

A range of a sequence runs from one position to another, both included, forwards or backwards.
Bounds are given by indices, which may count back from the end or be missing, and each that is given
has to be within the sequence. Only of the empty sequence there is nothing to ask: every range of it
is empty.

Slices and the characters of texts are taken apart in the same way, so that the laws are those of
lists.
-/
namespace DocSelect

/-- The index is none of a sequence of this length, counted from the front or back from the end. -/
def Outside (length : Nat) (i : Int64) : Prop := i.toInt < -length ∨ (length : Int) ≤ i.toInt

def place (length : Nat) (i : Int64) : Nat :=
  if i.toInt < 0 then (length + i.toInt).toNat else i.toInt.toNat

/-- The list goes through another one from one position to another, both included. -/
structure Runs {α : Type} (xs : List α) (first last : Nat) (ys : List α) : Prop where
  length_eq : ys.length = ((last : Int) - first).natAbs + 1
  getElem?_eq {k : Nat} (h : k < ys.length) : ys[k]? =
    xs[if first ≤ last then first + k else first - k]?

-- ---------------------------------------------------------------------------
-- Positions
-- ---------------------------------------------------------------------------

theorem position?_of_outside {length : Nat} {i : Int64} (h : Outside length i) :
    Store.position? i length = .error (.indexOutOfRange i length) := by
  unfold Outside at h
  refine if_pos ?_
  split <;> omega

theorem position?_of_not_outside {length : Nat} {i : Int64} (h : ¬ Outside length i) :
    Store.position? i length = .ok (place length i) := by
  unfold Outside at h
  unfold Store.position? place
  split <;> exact if_neg (by omega)

theorem place_lt {length : Nat} {i : Int64} (h : ¬ Outside length i) :
    place length i < length := by
  unfold Outside at h
  unfold place
  split <;> omega

def boundary? (length otherwise : Nat) : Option Int64 → Except ValueError Nat
  | some i => Store.position? i length
  | none => .ok otherwise

-- ---------------------------------------------------------------------------
-- Lists
-- ---------------------------------------------------------------------------

section
variable {α : Type} {xs : List α} {first last : Nat}

theorem between_runs (hfirst : first < xs.length) (hlast : last < xs.length) :
    Runs xs first last (between first last xs) := by
  unfold between
  split
  · rename_i hle
    have hlength : ((xs.drop first).take (last - first + 1)).length = last - first + 1 := by
      rw [List.length_take, List.length_drop]
      omega
    refine ⟨by omega, fun {k} hk => ?_⟩
    rw [hlength] at hk
    rw [if_pos hle, List.getElem?_take_of_lt hk, List.getElem?_drop]
  · rename_i hle
    have hlength : ((xs.drop last).take (first - last + 1)).length = first - last + 1 := by
      rw [List.length_take, List.length_drop]
      omega
    refine ⟨by rw [List.length_reverse]; omega, fun {k} hk => ?_⟩
    rw [List.length_reverse, hlength] at hk
    rw [if_neg hle, List.getElem?_reverse (by omega), hlength, List.getElem?_take_of_lt (by omega),
      List.getElem?_drop]
    congr 1
    omega

theorem between_swap : between last first xs = (between first last xs).reverse := by
  unfold between
  rcases Nat.lt_trichotomy first last with h | rfl | h
  · rw [if_neg (Nat.not_le.2 h), if_pos (Nat.le_of_lt h)]
  · rw [if_pos (Nat.le_refl _), Nat.sub_self]
    cases xs.drop first <;> rfl
  · rw [if_pos (Nat.le_of_lt h), if_neg (Nat.not_le.2 h), List.reverse_reverse]

/-- A bound is outside and refused, or it is missing or within the sequence and has a position
there. -/
theorem boundary?_cases {length otherwise : Nat} (h : otherwise < length) (bound : Option Int64) :
    (∃ i ∈ bound, Outside length i ∧
      boundary? length otherwise bound = .error (.indexOutOfRange i length)) ∨
    (∀ i ∈ bound, ¬ Outside length i) ∧ bound.elim otherwise (place length) < length ∧
      boundary? length otherwise bound = .ok (bound.elim otherwise (place length)) := by
  cases bound with
  | none => exact .inr ⟨fun i hi => absurd hi (Option.not_mem_none i), h, rfl⟩
  | some i =>
    by_cases hi : Outside length i
    · exact .inl ⟨i, rfl, hi, position?_of_outside hi⟩
    · refine .inr ⟨fun j hj => ?_, place_lt hi, position?_of_not_outside hi⟩
      rwa [← Option.mem_some.1 hj]

theorem range?_eq (hxs : xs ≠ []) (start stop : Option Int64) :
    range? start stop xs = do
      let first ← boundary? xs.length 0 start
      let last ← boundary? xs.length (xs.length - 1) stop
      return between first last xs := by
  rw [range?, List.isEmpty_eq_false_iff.2 hxs, if_neg Bool.false_ne_true]
  cases start <;> cases stop <;> rfl

theorem range?_cases (hxs : xs ≠ []) (start stop : Option Int64) :
    (∃ i, (i ∈ start ∨ i ∈ stop) ∧ Outside xs.length i ∧
      range? start stop xs = .error (.indexOutOfRange i xs.length)) ∨
    (∀ i, i ∈ start ∨ i ∈ stop → ¬ Outside xs.length i) ∧
      ∃ ys, range? start stop xs = .ok ys ∧
        Runs xs (start.elim 0 (place xs.length))
          (stop.elim (xs.length - 1) (place xs.length)) ys := by
  have hpos : 0 < xs.length := List.length_pos_iff.2 hxs
  rw [range?_eq hxs]
  rcases boundary?_cases hpos start with ⟨i, hi, hout, heq⟩ | ⟨hstart, hfirst, heq⟩
  · rw [heq]
    exact .inl ⟨i, .inl hi, hout, rfl⟩
  rcases boundary?_cases (Nat.sub_lt hpos Nat.one_pos) stop with ⟨j, hj, hout, heq'⟩ |
    ⟨hstop, hlast, heq'⟩
  · rw [heq, heq']
    exact .inl ⟨j, .inr hj, hout, rfl⟩
  · rw [heq, heq']
    exact .inr ⟨fun i hi => hi.elim (hstart i) (hstop i), _, rfl, between_runs hfirst hlast⟩

theorem range?_swap {i j : Int64} {ys : List α} (h : range? (some i) (some j) xs = .ok ys) :
    range? (some j) (some i) xs = .ok ys.reverse := by
  by_cases hxs : xs = []
  · subst hxs
    cases h
    rfl
  · rw [range?_eq hxs, boundary?, boundary?] at h
    rw [range?_eq hxs, boundary?, boundary?]
    cases hi : Store.position? i xs.length <;> cases hj : Store.position? j xs.length <;>
      rw [hi, hj] at h <;> cases h
    exact congrArg Except.ok between_swap

theorem range?_reverse (xs : List α) : range? (some (-1)) (some 0) xs = .ok xs.reverse := by
  cases xs with
  | nil => rfl
  | cons x xs =>
    have hwhole : between 0 xs.length (x :: xs) = x :: xs := by
      rw [between, if_pos (Nat.zero_le _), List.drop_zero, Nat.sub_zero]
      exact List.take_of_length_le (Nat.le_refl _)
    have hminus : (-1 : Int64).toInt = -1 := by decide
    have hlast : Store.position? (-1) (x :: xs).length = .ok xs.length := by
      have hinside : ¬ Outside (x :: xs).length (-1) := by
        rw [Outside, hminus, List.length_cons]
        omega
      rw [position?_of_not_outside hinside, place, hminus, List.length_cons, if_pos (by omega)]
      exact congrArg Except.ok (by omega)
    have hfirst : Store.position? 0 (x :: xs).length = .ok 0 := by
      have hinside : ¬ Outside (x :: xs).length 0 := by
        rw [Outside, Int64.toInt_zero, List.length_cons]
        omega
      rw [position?_of_not_outside hinside]
      rfl
    rw [range?_eq (List.cons_ne_nil x xs), boundary?, boundary?, hlast, hfirst]
    exact congrArg Except.ok (between_swap.trans (congrArg List.reverse hwhole))

end

-- ---------------------------------------------------------------------------
-- Slices and texts
-- ---------------------------------------------------------------------------

namespace Store

/-- The node holds a slice with these elements or a text with these characters. Other elements or
characters in the same container are made into data by the function. -/
inductive Sequence (s : Store) (r : Ref) :
    {α : Type} → List α → (List α → Data) → Prop where
  | slice {items : List Ref} (h : s.data r = .slice items) : Sequence s r items .slice
  | text {t : String} (h : s.data r = .string t) :
    Sequence s r t.toList fun characters => .string (String.ofList characters)

/-- The second is the text that is made of the texts in the first, one after the other. -/
def Concatenates (s : Store) (d d' : Data) : Prop :=
  ∃ parts texts, d = .slice parts ∧ parts.map s.data = texts.map Data.string ∧
    d' = .string (String.join texts)

variable {s : Store} {r q : Ref}

section
variable {α : Type} {xs : List α} {make : List α → Data}

theorem Sequence.data_eq (h : s.Sequence r xs make) : s.data r = make xs := by
  cases h with
  | slice h => exact h
  | text h =>
    rw [h]
    exact congrArg Data.string (String.ofList_toList).symm

theorem Sequence.make_injective (h : s.Sequence r xs make) : Function.Injective make := by
  cases h with
  | slice h => exact fun _ _ heq => Data.slice.inj heq
  | text h => exact fun _ _ heq => String.ofList_injective (Scalar.string.inj (Data.scalar.inj heq))

theorem Sequence.of_data_eq (h : s.Sequence r xs make) {t : Store} {ys : List α}
    (hq : t.data q = make ys) : t.Sequence q ys make := by
  cases h with
  | slice h => exact .slice hq
  | text h =>
    have htext := Sequence.text hq
    rwa [String.toList_ofList] at htext

theorem Sequence.range?_eq (h : s.Sequence r xs make) (start stop : Option Int64) :
    s.range? r start stop = (DocSelect.range? start stop xs).map make := by
  cases h with
  | @slice items h =>
    rw [Store.range?, h]
    show (do return Data.slice (← DocSelect.range? start stop items)) = _
    cases DocSelect.range? start stop items <;> rfl
  | @text t h =>
    rw [Store.range?, h]
    show (do return Data.string (String.ofList (← DocSelect.range? start stop t.toList))) = _
    cases DocSelect.range? start stop t.toList <;> rfl

theorem Sequence.exec_reverse (h : s.Sequence r xs make) (subject : Ref) :
    (Builtin.reverse.call subject [r]).exec s =
      (.ok (s.new (make xs.reverse)).1, (s.new (make xs.reverse)).2) := by
  have hkind : s.kind r = .slice ∨ s.kind r = .string := by
    cases h with
    | slice h => exact .inl (by rw [kind, h]; rfl)
    | text h => exact .inr (by rw [kind, h]; rfl)
  have hrange : s.range? r (some (-1)) (some 0) = .ok (make xs.reverse) := by
    rw [h.range?_eq, range?_reverse]
    rfl
  show Action.exec (do
    let kind ← Action.read (·.kind r)
    if kind = Kind.slice ∨ kind = Kind.string then
      Action.new (← Action.ask (·.range? r (some (-1)) (some 0)))
    else Action.refuse (.notReversible kind)) s = _
  rw [Action.exec_bind, Action.exec_read]
  dsimp only
  rw [if_pos hkind, Action.exec_bind, Action.exec_ask, hrange]
  rfl

end

theorem join_singletons (characters : List Char) :
    String.join (characters.map String.singleton) = String.ofList characters := by
  rw [← String.toList_inj, String.toList_join, List.flatMap_map, String.toList_ofList]
  simp only [String.toList_singleton, List.flatMap_singleton']

theorem range?_concatenates {t : String} {items : List Ref} (hr : s.data r = .string t)
    (hq : s.data q = .slice items)
    (hitems : List.Forall₂ (fun c character => s.data c = .string (String.singleton character))
      items t.toList) (start stop : Option Int64) :
    Except.Alike s.Concatenates (s.range? q start stop) (s.range? r start stop) := by
  rw [(Sequence.slice hq).range?_eq, (Sequence.text hr).range?_eq]
  have halike := range?_alike hitems start stop
  generalize DocSelect.range? start stop items =
    x, DocSelect.range? start stop t.toList = y at halike ⊢
  cases halike with
  | error e => exact .error e
  | @ok parts characters hparts =>
    refine .ok ⟨parts, characters.map String.singleton, rfl, ?_, by rw [join_singletons]⟩
    rw [List.map_map, ← List.forall₂_eq_eq_eq]
    exact forall₂_map_of_mem hparts fun c _ character hc => hc

end Store

/-- Every range of an empty sequence is empty. Of another one a bound is out of range and refused,
or all bounds are within it, and the range runs from the first position to the last one. Turning the
bounds around turns the range around, a range of a text is made of the same range of its characters,
and what is reversed twice is as it was. -/
theorem ranges_of_sequences {s : Store} {r : Ref} {α : Type} {xs : List α}
    {make : List α → Data} (h : s.Sequence r xs make) :
    (xs = [] → ∀ start stop, s.range? r start stop = .ok (make [])) ∧
      (xs ≠ [] → ∀ start stop,
        (∃ i, (i ∈ start ∨ i ∈ stop) ∧ Outside xs.length i ∧
          s.range? r start stop = .error (.indexOutOfRange i xs.length)) ∨
        (∀ i, i ∈ start ∨ i ∈ stop → ¬ Outside xs.length i) ∧
          ∃ ys, s.range? r start stop = .ok (make ys) ∧
            Runs xs (start.elim 0 (place xs.length))
              (stop.elim (xs.length - 1) (place xs.length)) ys) ∧
      (∀ i j ys, s.range? r (some i) (some j) = .ok (make ys) →
        s.range? r (some j) (some i) = .ok (make ys.reverse)) ∧
      (∀ (t : String) (q : Ref) (items : List Ref), s.data r = .string t →
        s.data q = .slice items →
        List.Forall₂ (fun c character => s.data c = .string (String.singleton character))
          items t.toList →
        ∀ start stop, Except.Alike s.Concatenates (s.range? q start stop)
          (s.range? r start stop)) ∧
      ∀ subject subject', ∃ q t q' t',
        (Builtin.reverse.call subject [r]).exec s = (.ok q, t) ∧
        (Builtin.reverse.call subject' [q]).exec t = (.ok q', t') ∧
        t.data q = make xs.reverse ∧ t'.data q' = s.data r := by
  refine ⟨fun hempty start stop => ?_, fun hne start stop => ?_, fun i j ys hys => ?_,
    fun t q items hr hq hitems => Store.range?_concatenates hr hq hitems,
      fun subject subject' => ?_⟩
  · subst hempty
    rw [h.range?_eq]
    rfl
  · rw [h.range?_eq]
    rcases range?_cases hne start stop with ⟨i, hi, hout, herror⟩ |
      ⟨hinside, ys, hys, hruns⟩
    · exact .inl ⟨i, hi, hout, by rw [herror]; rfl⟩
    · exact .inr ⟨hinside, ys, by rw [hys]; rfl, hruns⟩
  · rw [h.range?_eq] at hys ⊢
    cases hrange : range? (some i) (some j) xs with
    | error e =>
      rw [hrange] at hys
      cases hys
    | ok zs =>
      rw [hrange] at hys
      cases h.make_injective (Except.ok.inj hys)
      rw [range?_swap hrange]
      rfl
  · have hq := s.data_new_self (make xs.reverse)
    have hturned := h.of_data_eq hq
    refine ⟨_, _, _, _, h.exec_reverse subject, hturned.exec_reverse subject', hq, ?_⟩
    rw [Store.data_new_self, List.reverse_reverse, h.data_eq]

/-- A text, and a slice of its characters. -/
theorem ranges_of_sequences_text :
    let s := (Session.start
      (.slice [.string "abc", .slice [.string "a", .string "b", .string "c"]]) []).2.store
    s.Sequence ⟨0⟩ "abc".toList (fun characters => .string (String.ofList characters)) ∧
      s.range? ⟨0⟩ (some 1) (some (-1)) = .ok (.string "bc") ∧
      s.range? ⟨0⟩ (some (-1)) (some 1) = .ok (.string (String.ofList ['c', 'b'])) ∧
      Except.Alike s.Concatenates (s.range? ⟨4⟩ none none) (s.range? ⟨0⟩ none none) := by
  intro s
  have h : s.Sequence ⟨0⟩ "abc".toList fun characters =>
      .string (String.ofList characters) := .text rfl
  have hforward : s.range? ⟨0⟩ (some 1) (some (-1)) =
      .ok (.string (String.ofList ['b', 'c'])) := by
    rw [h.range?_eq]
    have hrange : range? (some 1) (some (-1)) "abc".toList = .ok ['b', 'c'] := by decide +kernel
    rw [hrange]
    rfl
  obtain ⟨-, -, hswap, htext, -⟩ := ranges_of_sequences h
  refine ⟨h, hforward, hswap 1 (-1) ['b', 'c'] hforward,
    htext "abc" ⟨4⟩ [⟨1⟩, ⟨2⟩, ⟨3⟩] rfl rfl ?_ _ _⟩
  have hcharacters : "abc".toList = ['a', 'b', 'c'] := by decide +kernel
  rw [hcharacters]
  exact .cons rfl (.cons rfl (.cons rfl .nil))

end DocSelect
