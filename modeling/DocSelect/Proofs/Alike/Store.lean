import DocSelect.Eval.Construction
import DocSelect.Eval.Operation
import DocSelect.Proofs.Grounded
import Mathlib.Data.List.Forall2
import Mathlib.Order.Basic

/-!
# Stores that are alike

Two stores are alike along a pairing of their nodes if paired nodes hold the same: equal scalars,
and containers whose parts are again paired, under the same keys. They carry the same marks, apart
from notes. Names and the order of creation do not matter, nor do the nodes that have no partner. No
node has two partners, because some operations compare names.

What can be read from a store without naming nodes is the same for paired nodes, and what names
nodes names paired ones.
-/
namespace DocSelect

abbrev Pairing := Ref → Ref → Prop

/-- The same keys in the same order, with related values. -/
def Assoc.Alike {α β : Type} (R : α → β → Prop) (es : List (String × α))
    (es' : List (String × β)) : Prop :=
  List.Forall₂ (fun e e' => e.1 = e'.1 ∧ R e.2 e'.2) es es'

abbrev Dict.Alike (m : Pairing) (d d' : Dict Ref) : Prop := Assoc.Alike m d.entries d'.entries

inductive Data.Alike (m : Pairing) : Data → Data → Prop where
  | scalar (a : Scalar) : Alike m (.scalar a) (.scalar a)
  | slice {xs ys : List Ref} (h : List.Forall₂ m xs ys) : Alike m (.slice xs) (.slice ys)
  | map {d d' : Dict Ref} (h : d.Alike m d') : Alike m (.map d) (.map d')

structure Marks.Alike (k k' : Marks) : Prop where
  branch : k.branch = k'.branch
  spread : k.spread = k'.spread
  ignored : k.ignored = k'.ignored

/-- Results with related values, or the same error. -/
inductive Except.Alike {ε α β : Type} (R : α → β → Prop) :
    Except ε α → Except ε β → Prop where
  | ok {a : α} {b : β} (h : R a b) : Alike R (.ok a) (.ok b)
  | error (e : ε) : Alike R (.error e) (.error e)

structure Store.Alike (m : Pairing) (s t : Store) : Prop where
  left {a a' b : Ref} : m a b → m a' b → a = a'
  right {a b b' : Ref} : m a b → m a b' → b = b'
  lt {a b : Ref} : m a b → a.index < s.size ∧ b.index < t.size
  data {a b : Ref} : m a b → (s.data a).Alike m (t.data b)
  marks {a b : Ref} : m a b → (s.marks a).Alike (t.marks b)
  grounded {a b : Ref} : m a b → s.Grounded a

namespace Except.Alike

variable {ε ε' α β γ δ : Type} {R : α → β → Prop} {S : γ → δ → Prop}
  {x : Except ε α} {y : Except ε β}

theorem of_eq {x y : Except ε α} (h : x = y) : Except.Alike (· = ·) x y := by
  subst h
  cases x with
  | ok a => exact .ok rfl
  | error e => exact .error e

theorem bind_ok (h : Except.Alike R x y) {f : α → Except ε γ} {g : β → Except ε δ}
    (hf : ∀ a b, x = .ok a → R a b → Except.Alike S (f a) (g b)) :
    Except.Alike S (x >>= f) (y >>= g) := by
  cases h with
  | ok h => exact hf _ _ rfl h
  | error e => exact .error e

theorem bind (h : Except.Alike R x y) {f : α → Except ε γ} {g : β → Except ε δ}
    (hf : ∀ a b, R a b → Except.Alike S (f a) (g b)) : Except.Alike S (x >>= f) (y >>= g) :=
  h.bind_ok fun a b _ => hf a b

theorem mapError (h : Except.Alike R x y) (f : ε → ε') :
    Except.Alike R (x.mapError f) (y.mapError f) := by
  cases h with
  | ok h => exact .ok h
  | error e => exact .error (f e)

theorem mapM {xs : List α} {ys : List β} (h : List.Forall₂ R xs ys) {f : α → Except ε γ}
    {g : β → Except ε δ} (hf : ∀ a ∈ xs, ∀ b, R a b → Except.Alike S (f a) (g b)) :
    Except.Alike (List.Forall₂ S) (xs.mapM f) (ys.mapM g) := by
  induction h with
  | nil => exact .ok .nil
  | cons hab _ ih =>
    rw [List.mapM_cons, List.mapM_cons]
    refine (hf _ List.mem_cons_self _ hab).bind fun c d hcd => ?_
    exact (ih fun a ha => hf a (List.mem_cons_of_mem _ ha)).bind fun cs ds h => .ok (.cons hcd h)

end Except.Alike

theorem exists_of_forall₂_left {α β : Type} {R : α → β → Prop} {xs : List α}
    {ys : List β} (h : List.Forall₂ R xs ys) {x : α} (hx : x ∈ xs) : ∃ y ∈ ys, R x y := by
  induction h with
  | nil => simp at hx
  | cons hxy _ ih =>
    rcases List.mem_cons.1 hx with rfl | hx
    · exact ⟨_, List.mem_cons_self, hxy⟩
    · obtain ⟨y, hy, hxy⟩ := ih hx
      exact ⟨y, List.mem_cons_of_mem _ hy, hxy⟩

theorem exists_of_forall₂_right {α β : Type} {R : α → β → Prop} {xs : List α}
    {ys : List β} (h : List.Forall₂ R xs ys) {y : β} (hy : y ∈ ys) : ∃ x ∈ xs, R x y :=
  exists_of_forall₂_left h.flip hy

theorem forall₂_map_of_mem {α β γ δ : Type} {R : α → β → Prop} {S : γ → δ → Prop}
    {xs : List α} {ys : List β} (h : List.Forall₂ R xs ys) {f : α → γ} {g : β → δ}
    (hf : ∀ x ∈ xs, ∀ y, R x y → S (f x) (g y)) :
    List.Forall₂ S (xs.map f) (ys.map g) := by
  induction h with
  | nil => exact .nil
  | cons hxy _ ih =>
    exact .cons (hf _ List.mem_cons_self _ hxy) (ih fun x hx => hf x (List.mem_cons_of_mem _ hx))

theorem between_alike {α β : Type} {R : α → β → Prop} {xs : List α} {ys : List β}
    (h : List.Forall₂ R xs ys) (start stop : Nat) :
    List.Forall₂ R (between start stop xs) (between start stop ys) := by
  unfold between
  split
  · exact List.forall₂_take _ (List.forall₂_drop _ h)
  · exact List.rel_reverse (List.forall₂_take _ (List.forall₂_drop _ h))

theorem range?_alike {α β : Type} {R : α → β → Prop} {xs : List α} {ys : List β}
    (h : List.Forall₂ R xs ys) (start stop : Option Int64) :
    Except.Alike (List.Forall₂ R) (range? start stop xs) (range? start stop ys) := by
  have hempty : xs.isEmpty = ys.isEmpty := by cases h <;> rfl
  unfold range?
  simp only [hempty, h.length_eq]
  split
  · exact .ok .nil
  · have hlast (first : Nat) (j : Int64) : Except.Alike (List.Forall₂ R)
        (Store.position? j ys.length >>= fun last => .ok (between first last xs))
        (Store.position? j ys.length >>= fun last => .ok (between first last ys)) :=
      Except.Alike.bind (.of_eq rfl) fun _ _ heq => .ok (heq ▸ between_alike h first _)
    rcases start with _ | i <;> rcases stop with _ | j
    · exact .ok (between_alike h _ _)
    · exact hlast 0 j
    · refine Except.Alike.bind (.of_eq rfl) fun first _ heq => ?_
      exact heq ▸ .ok (between_alike h first _)
    · refine Except.Alike.bind (.of_eq rfl) fun first _ heq => ?_
      exact heq ▸ hlast first j

-- ---------------------------------------------------------------------------
-- Dictionaries
-- ---------------------------------------------------------------------------

namespace Assoc.Alike

variable {α β : Type} {R : α → β → Prop} {es : List (String × α)}
  {es' : List (String × β)}

theorem keys_eq (h : Assoc.Alike R es es') : Assoc.keys es = Assoc.keys es' := by
  induction h with
  | nil => rfl
  | cons he _ ih => exact congrArg₂ List.cons he.1 ih

theorem values (h : Assoc.Alike R es es') :
    List.Forall₂ R (es.map Prod.snd) (es'.map Prod.snd) :=
  List.rel_map (fun _ _ he => he.2) h

theorem find? (h : Assoc.Alike R es es') (key : String) :
    (Assoc.find? key es = none ∧ Assoc.find? key es' = none) ∨
      ∃ a b, Assoc.find? key es = some a ∧ Assoc.find? key es' = some b ∧ R a b := by
  induction h with
  | nil => exact .inl ⟨rfl, rfl⟩
  | @cons e e' es es' he _ ih =>
    obtain ⟨k, a⟩ := e
    obtain ⟨k', b⟩ := e'
    obtain ⟨rfl, hab⟩ := he
    by_cases hk : k = key
    · exact .inr ⟨a, b, by simp [Assoc.find?, hk], by simp [Assoc.find?, hk], hab⟩
    · simp only [Assoc.find?, hk, if_false]
      exact ih

theorem insert (h : Assoc.Alike R es es') (key : String) {a : α} {b : β} (hab : R a b) :
    Assoc.Alike R (Assoc.insert key a es) (Assoc.insert key b es') := by
  induction h with
  | nil => exact .cons ⟨rfl, hab⟩ .nil
  | @cons e e' es es' he hes ih =>
    obtain ⟨k, c⟩ := e
    obtain ⟨k', c'⟩ := e'
    obtain ⟨rfl, hc⟩ := he
    unfold Assoc.insert
    split
    · exact .cons ⟨rfl, hab⟩ hes
    · exact .cons ⟨rfl, hc⟩ ih

end Assoc.Alike

namespace Dict.Alike

variable {m m' : Pairing} {d d' : Dict Ref}

theorem empty : (Dict.empty : Dict Ref).Alike m Dict.empty := .nil

theorem mono (h : d.Alike m d') (hm : m ≤ m') : d.Alike m' d' :=
  List.Forall₂.imp (fun _ _ he => ⟨he.1, hm _ _ he.2⟩) h

theorem contains (h : d.Alike m d') (key : String) : d.contains key = d'.contains key := by
  rcases Assoc.Alike.find? h key with ⟨ha, hb⟩ | ⟨a, b, ha, hb, -⟩ <;>
    simp [Dict.contains, Dict.find?, ha, hb]

theorem insertAll (h : d.Alike m d') {es es' : List (String × Ref)} (hes : Assoc.Alike m es es') :
    (d.insertAll es).Alike m (d'.insertAll es') := by
  induction hes generalizing d d' with
  | nil => exact h
  | @cons e e' _ _ he _ ih =>
    obtain ⟨k, a⟩ := e
    obtain ⟨k', b⟩ := e'
    obtain ⟨rfl, hab⟩ := he
    exact ih (Assoc.Alike.insert h k hab)

theorem ofList {es es' : List (String × Ref)} (hes : Assoc.Alike m es es') :
    (Dict.ofList es).Alike m (Dict.ofList es') := insertAll empty hes

end Dict.Alike

namespace Data.Alike

variable {m m' : Pairing} {d d' : Data}

theorem mono (h : d.Alike m d') (hm : m ≤ m') : d.Alike m' d' := by
  cases h with
  | scalar a => exact .scalar a
  | slice h => exact .slice (h.imp fun _ _ => hm _ _)
  | map h => exact .map (h.mono hm)

theorem kind_eq (h : d.Alike m d') : d.kind = d'.kind := by cases h <;> rfl

theorem children (h : d.Alike m d') : List.Forall₂ m d.children d'.children := by
  cases h with
  | scalar => exact .nil
  | slice h => exact h
  | map h => exact Assoc.Alike.values h

end Data.Alike

-- ---------------------------------------------------------------------------
-- Reading
-- ---------------------------------------------------------------------------

namespace Store.Alike

variable {m : Pairing} {s t : Store} {a b : Ref}

theorem grounded_right (h : s.Alike m t) (hab : m a b) : t.Grounded b := by
  have hacc := h.grounded hab
  induction hacc generalizing b with
  | intro a _ ih =>
    refine ⟨b, fun d hd => ?_⟩
    obtain ⟨c, hc, hcd⟩ := exists_of_forall₂_right (h.data hab).children hd
    exact ih c hc hcd

theorem kind_eq (h : s.Alike m t) (hab : m a b) : s.kind a = t.kind b := (h.data hab).kind_eq

theorem isNull_eq (h : s.Alike m t) (hab : m a b) : s.isNull a = t.isNull b := by
  rw [isNull, isNull, h.kind_eq hab]

theorem isScalar_eq (h : s.Alike m t) (hab : m a b) : s.isScalar a = t.isScalar b := by
  rw [isScalar, isScalar, h.kind_eq hab]

theorem isBranch_eq (h : s.Alike m t) (hab : m a b) : s.isBranch a = t.isBranch b :=
  (h.marks hab).branch

theorem isSpread_eq (h : s.Alike m t) (hab : m a b) : s.isSpread a = t.isSpread b :=
  (h.marks hab).spread

theorem isIgnored_eq (h : s.Alike m t) (hab : m a b) : s.isIgnored a = t.isIgnored b :=
  (h.marks hab).ignored

theorem unexpected_eq {α : Type} (h : s.Alike m t) (hab : m a b) (expected : Kind) :
    (s.unexpected a expected : Except ValueError α) = t.unexpected b expected := by
  rw [unexpected, unexpected, h.kind_eq hab]

theorem bool?_eq (h : s.Alike m t) (hab : m a b) : s.bool? a = t.bool? b := by
  have hd := h.data hab
  unfold bool?
  rw [h.unexpected_eq hab]
  generalize s.data a = d, t.data b = d' at hd ⊢
  cases hd <;> rfl

theorem int?_eq (h : s.Alike m t) (hab : m a b) : s.int? a = t.int? b := by
  have hd := h.data hab
  unfold int?
  rw [h.unexpected_eq hab]
  generalize s.data a = d, t.data b = d' at hd ⊢
  cases hd <;> rfl

theorem string?_eq (h : s.Alike m t) (hab : m a b) : s.string? a = t.string? b := by
  have hd := h.data hab
  unfold string?
  rw [h.unexpected_eq hab]
  generalize s.data a = d, t.data b = d' at hd ⊢
  cases hd <;> rfl

theorem length?_eq (h : s.Alike m t) (hab : m a b) : s.length? a = t.length? b := by
  have hd := h.data hab
  unfold length?
  rw [h.unexpected_eq hab]
  generalize s.data a = d, t.data b = d' at hd ⊢
  cases hd with
  | scalar => rfl
  | slice h => simp only [h.length_eq]
  | map h => simp only [Dict.size, h.length_eq]

theorem items? (h : s.Alike m t) (hab : m a b) :
    Except.Alike (List.Forall₂ m) (s.items? a) (t.items? b) := by
  have hd := h.data hab
  unfold Store.items?
  rw [h.unexpected_eq hab]
  generalize s.data a = d, t.data b = d' at hd ⊢
  cases hd with
  | scalar => exact .error _
  | slice h => exact .ok h
  | map => exact .error _

theorem entries? (h : s.Alike m t) (hab : m a b) :
    Except.Alike (Dict.Alike m) (s.entries? a) (t.entries? b) := by
  have hd := h.data hab
  unfold Store.entries?
  rw [h.unexpected_eq hab]
  generalize s.data a = d, t.data b = d' at hd ⊢
  cases hd with
  | scalar => exact .error _
  | slice => exact .error _
  | map h => exact .ok h

theorem key? (h : s.Alike m t) (hab : m a b) (key : String) :
    Except.Alike m (s.key? a key) (t.key? b key) := by
  refine (h.entries? hab).bind fun d d' hd => ?_
  rcases Assoc.Alike.find? hd key with ⟨ha, hb⟩ | ⟨c, c', ha, hb, hc⟩ <;>
    simp only [Dict.find?, ha, hb]
  · exact .error _
  · exact .ok hc

theorem item? (h : s.Alike m t) (hab : m a b) (index : Int64) :
    Except.Alike m (s.item? a index) (t.item? b index) := by
  refine (h.items? hab).bind fun xs ys hxs => ?_
  rw [hxs.length_eq]
  refine Except.Alike.bind (.of_eq rfl) fun i _ hi => ?_
  subst hi
  rcases hx : xs[i]? with _ | x
  · rw [List.getElem?_eq_none_iff, hxs.length_eq] at hx
    rw [List.getElem?_eq_none_iff.2 hx]
    exact .error _
  · obtain ⟨hlt, rfl⟩ := List.getElem?_eq_some_iff.1 hx
    have hlt' : i < ys.length := hxs.length_eq ▸ hlt
    rw [List.getElem?_eq_getElem hlt']
    exact .ok (hxs.get hlt hlt')

theorem range? (h : s.Alike m t) (hab : m a b) (start stop : Option Int64) :
    Except.Alike (Data.Alike m) (s.range? a start stop) (t.range? b start stop) := by
  have hd := h.data hab
  unfold Store.range?
  rw [h.unexpected_eq hab]
  generalize s.data a = d, t.data b = d' at hd ⊢
  cases hd with
  | map => exact .error _
  | scalar x =>
    cases x with
    | string text => exact Except.Alike.bind (.of_eq rfl) fun _ _ heq => .ok (heq ▸ .scalar _)
    | _ => exact .error _
  | @slice xs ys hxs =>
    exact Except.Alike.bind (range?_alike hxs start stop) fun _ _ hr => .ok (.slice hr)

theorem flatten (h : s.Alike m t) (hab : m a b) :
    Except.Alike (List.Forall₂ m) (s.flatten a) (t.flatten b) := by
  have hacc := h.grounded hab
  induction hacc generalizing b with
  | intro a _ ih =>
    rw [(h.grounded hab).flatten_eq, (h.grounded_right hab).flatten_eq, h.isBranch_eq hab]
    split
    · refine (h.items? hab).bind_ok fun xs ys hi hxs => ?_
      refine (Except.Alike.mapM hxs fun x hx y hxy => ?_).bind fun _ _ hr =>
        .ok (List.rel_flatten hr)
      exact ih x (by rwa [Part, children_of_items? hi]) hxy
    · exact .ok (.cons hab .nil)

theorem contribution (h : s.Alike m t) (hab : m a b) :
    Except.Alike (List.Forall₂ m) (s.contribution a) (t.contribution b) := by
  unfold Store.contribution
  rw [h.isSpread_eq hab]
  split
  · refine (h.items? hab).bind fun xs ys hxs => ?_
    exact (Except.Alike.mapM hxs fun _ _ _ hxy => h.flatten hxy).bind fun _ _ hr =>
      .ok (List.rel_flatten hr)
  · exact h.flatten hab

theorem passed (h : s.Alike m t) (hab : m a b) :
    Except.Alike (List.Forall₂ m) (s.passed a) (t.passed b) := by
  unfold Store.passed
  rw [h.isSpread_eq hab, h.isBranch_eq hab]
  split
  · exact h.items? hab
  · exact .ok (.cons hab .nil)

theorem logic?_eq (h : s.Alike m t) {a' b' : Ref} (hab : m a b) (hab' : m a' b') (decisive : Bool) :
    s.logic? decisive a a' = t.logic? decisive b b' := by
  rw [logic?, logic?, h.bool?_eq hab, h.bool?_eq hab']

theorem arithmetic?_eq (h : s.Alike m t) {a' b' : Ref} (hab : m a b) (hab' : m a' b')
    (op : Arithmetic) : s.arithmetic? op a a' = t.arithmetic? op b b' := by
  have hd := h.data hab
  have hd' := h.data hab'
  unfold arithmetic?
  generalize s.data a = d, t.data b = e, s.data a' = d', t.data b' = e' at hd hd' ⊢
  cases hd <;> cases hd' <;> rfl

end Store.Alike

end DocSelect
