import DocSelect.Proofs.Mutation

/-!
# Changes of containers that fail

Setting a key, setting an item and deleting a key find out whether they can be done before they
write. Appending does not: a branch is taken apart while its elements are being added, so a part of
it that cannot be taken apart is found after those before it have been added, and a branch without
elements is accepted by any node. What a value offers to a slice says all of this: the nodes in it,
and the failure behind them.
-/
namespace DocSelect

-- ---------------------------------------------------------------------------
-- Offers
-- ---------------------------------------------------------------------------

structure Offer where
  nodes : List Ref
  fault : Option ValueError

namespace Offer

def nothing : Offer := ⟨[], none⟩

def single (r : Ref) : Offer := ⟨[r], none⟩

def failure (e : ValueError) : Offer := ⟨[], some e⟩

def andThen (a b : Offer) : Offer :=
  match a.fault with
  | none => ⟨a.nodes ++ b.nodes, b.fault⟩
  | some _ => a

def all (f : Ref → Offer) : List Ref → Offer
  | [] => nothing
  | r :: rs => (f r).andThen (all f rs)

/-- What comes of an offer where all its nodes are accepted. -/
def outcome (o : Offer) : Except ValueError Unit :=
  match o.fault with
  | none => .ok ()
  | some e => .error e

def refused (refusal : ValueError) (o : Offer) : Except ValueError Unit :=
  if o.nodes = [] then o.outcome else .error refusal

variable {a b : Offer}

theorem andThen_of_none (h : a.fault = none) : a.andThen b = ⟨a.nodes ++ b.nodes, b.fault⟩ := by
  rw [andThen, h]

theorem andThen_of_some {e : ValueError} (h : a.fault = some e) : a.andThen b = a := by
  rw [andThen, h]

theorem all_congr {f g : Ref → Offer} {rs : List Ref} (h : ∀ r ∈ rs, f r = g r) :
    all f rs = all g rs := by
  induction rs with
  | nil => rfl
  | cons r rs ih =>
    rw [all, all, h r List.mem_cons_self, ih fun q hq => h q (List.mem_cons_of_mem _ hq)]

def listed (o : Offer) : Except ValueError (List Ref) := o.outcome.map fun _ => o.nodes

theorem listed_andThen : (a.andThen b).listed = do return (← a.listed) ++ (← b.listed) := by
  obtain ⟨as, _ | e⟩ := a
  · obtain ⟨bs, _ | e⟩ := b <;> rfl
  · rfl

theorem listed_all (f : Ref → Offer) (rs : List Ref) :
    (all f rs).listed = do return (← rs.mapM fun r => (f r).listed).flatten := by
  induction rs with
  | nil => rfl
  | cons r rs ih =>
    rw [all, listed_andThen, ih, List.mapM_cons]
    cases (f r).listed with
    | error e => rfl
    | ok nodes => cases rs.mapM fun r => (f r).listed <;> rfl

theorem listed_eq_ok_iff {nodes : List Ref} :
    a.listed = .ok nodes ↔ a.fault = none ∧ a.nodes = nodes := by
  obtain ⟨as, _ | e⟩ := a
  · simp [listed, outcome, Except.map]
  · simp [listed, outcome, Except.map]

theorem refused_eq_ok_iff {refusal : ValueError} :
    a.refused refusal = .ok () ↔ a.fault = none ∧ a.nodes = [] := by
  obtain ⟨_ | ⟨r, rs⟩, _ | e⟩ := a <;> simp [refused, outcome]

theorem outcome_eq_ok_iff : a.outcome = .ok () ↔ a.fault = none := by
  obtain ⟨as, _ | e⟩ := a <;> simp [outcome]

end Offer

namespace Store

def offerWithin (s : Store) : (fuel : Nat) → Ref → Offer
  | 0, _ => .nothing
  | fuel + 1, r =>
    if s.isBranch r then
      match s.items? r with
      | .error e => .failure e
      | .ok items => .all (s.offerWithin fuel) items
    else .single r

/-- What a value offers to a slice: itself, or what the elements of a branch offer, to every depth
and up to the first branch that is no slice. -/
def offer (s : Store) (r : Ref) : Offer := s.offerWithin (s.size + 1) r

variable {s : Store} {r : Ref}

theorem offerWithin_stable {fuel : Nat} (h : ¬ s.Deep fuel r) (more : Nat) :
    s.offerWithin (fuel + more) r = s.offerWithin fuel r := by
  induction fuel generalizing r with
  | zero => exact absurd trivial h
  | succ fuel ih =>
    rw [Nat.add_right_comm]
    unfold offerWithin
    rcases hi : s.items? r with e | items
    · rfl
    · have hitems : ∀ c ∈ items, s.offerWithin (fuel + more) c = s.offerWithin fuel c :=
        fun c hc =>
        ih fun hn => h ⟨c, by rwa [Part, children_of_items? hi], hn⟩
      simp only [Offer.all_congr hitems]

theorem Grounded.offer_eq (h : s.Grounded r) :
    s.offer r =
      if s.isBranch r then
        match s.items? r with
        | .error e => .failure e
        | .ok items => .all s.offer items
      else .single r := by
  rw [offer, offerWithin]
  rcases hi : s.items? r with e | items
  · rfl
  · have hitems : ∀ c ∈ items, s.offerWithin s.size c = s.offer c := fun c hc =>
      have hpart : s.Part c r := by rwa [Part, children_of_items? hi]
      (offerWithin_stable (fun hn => h.not_deep ⟨c, hpart, hn⟩) 1).symm
    simp only [Offer.all_congr hitems]

theorem Grounded.flatten_eq_listed (h : s.Grounded r) : s.flatten r = (s.offer r).listed := by
  induction h with
  | intro r hacc ih =>
    have hr : s.Grounded r := ⟨r, hacc⟩
    rw [hr.flatten_eq, hr.offer_eq]
    cases s.isBranch r with
    | false => rfl
    | true =>
      rcases hi : s.items? r with e | items
      · rfl
      · have hitems : ∀ c ∈ items, s.flatten c = (s.offer c).listed := fun c hc =>
          ih c (by rwa [Part, children_of_items? hi])
        simp only [if_true, bind, Except.bind, mapM_congr_mem hitems]
        exact (Offer.listed_all s.offer items).symm

end Store

-- ---------------------------------------------------------------------------
-- Adding
-- ---------------------------------------------------------------------------

abbrev Adder := Store → Except ValueError Unit × Store

namespace Adder

def skip : Adder := fun s => (.ok (), s)

def andThen (run next : Adder) : Adder := fun s =>
  match run s with
  | (.ok (), t) => next t
  | (.error e, t) => (.error e, t)

def all (f : Ref → Adder) : List Ref → Adder
  | [] => skip
  | r :: rs => (f r).andThen (all f rs)

theorem all_append (f : Ref → Adder) (rs qs : List Ref) :
    all f (rs ++ qs) = (all f rs).andThen (all f qs) := by
  induction rs with
  | nil => rfl
  | cons r rs ih =>
    funext s
    rw [List.cons_append, all, all, ih]
    unfold andThen
    rcases f r s with ⟨_ | _, t⟩ <;> rfl

/-- Adders that refuse what is offered and leave the store alone do so one after the other, too. -/
theorem all_refused {f : Ref → Adder} {g : Ref → Offer} {refusal : ValueError} {s : Store}
    (h : ∀ r, f r s = ((g r).refused refusal, s)) (rs : List Ref) :
    all f rs s = ((Offer.all g rs).refused refusal, s) := by
  induction rs with
  | nil => rfl
  | cons r rs ih =>
    rw [all, Offer.all, andThen, h r]
    obtain ⟨_ | ⟨q, qs⟩, _ | e⟩ := g r
    case nil.none => exact ih
    all_goals rfl

theorem foldl_eq_all (f : Ref → Adder) (rs : List Ref) (s : Store) :
    rs.foldl
      (fun (result, s) item =>
        match result with
        | .ok () => f item s
        | .error e => (.error e, s))
      (.ok (), s) = all f rs s := by
  have hstopped (rs : List Ref) (e : ValueError) (s : Store) :
      rs.foldl
        (fun (result, s) item =>
          match result with
          | .ok () => f item s
          | .error e => (.error e, s))
        (.error e, s) = ((.error e, s) : Except ValueError Unit × Store) := by
    induction rs with
    | nil => rfl
    | cons r rs ih => exact ih
  induction rs generalizing s with
  | nil => rfl
  | cons r rs ih =>
    rw [List.foldl_cons, all, andThen]
    rcases hr : f r s with ⟨e | _, t⟩ <;> dsimp only <;> rw [hr]
    · exact hstopped rs e t
    · exact ih t

end Adder

namespace Store

theorem appendWithin_succ (fuel : Nat) (target value : Ref) (s : Store) :
    appendWithin (fuel + 1) target value s =
      if s.isBranch value then
        match s.items? value with
        | .error e => (.error e, s)
        | .ok items => Adder.all (appendWithin fuel target) items s
      else
        match s.push target value with
        | .ok s => (.ok (), s)
        | .error e => (.error e, s) := by
  rw [appendWithin]
  cases s.isBranch value with
  | false => rfl
  | true =>
    rcases s.items? value with e | items
    · rfl
    · exact Adder.foldl_eq_all (appendWithin fuel target) items s

-- ---------------------------------------------------------------------------
-- Adding to a node that is no slice
-- ---------------------------------------------------------------------------

theorem items?_of_kind_ne {s : Store} {r : Ref} (h : s.kind r ≠ .slice) :
    s.items? r = s.unexpected r .slice := by
  unfold items?
  split
  case h_1 items hd =>
    rw [kind, hd] at h
    exact absurd rfl h
  case h_2 => rfl

/-- A node that is no slice refuses the first node that is offered to it, and stays as it is. -/
theorem appendWithin_refused {s : Store} {target : Ref} (h : s.kind target ≠ .slice) (fuel : Nat)
    (value : Ref) :
    appendWithin fuel target value s =
      ((s.offerWithin fuel value).refused (.unexpectedKind .slice (s.kind target)), s) := by
  have hpush (r : Ref) : s.push target r = .error (.unexpectedKind .slice (s.kind target)) := by
    rw [push, items?_of_kind_ne h]
    rfl
  induction fuel generalizing value with
  | zero => rfl
  | succ fuel ih =>
    rw [appendWithin_succ, offerWithin]
    cases s.isBranch value with
    | false => rw [hpush]; rfl
    | true =>
      rcases s.items? value with e | items
      · rfl
      · exact Adder.all_refused ih items

-- ---------------------------------------------------------------------------
-- Adding to a slice
-- ---------------------------------------------------------------------------

/-- The nodes that a slice has gained from an offer, after `more` that it had gained before: the
nodes of the offer in their order, and possibly some of these again; none of them is a branch. -/
structure Gained (s : Store) (more : List Ref) (o : Offer) (gained : List Ref) : Prop where
  plain : ∀ r ∈ gained, s.isBranch r = false
  offered : o.nodes.Sublist gained
  source : ∀ r ∈ gained, r ∈ more ∨ r ∈ o.nodes

namespace Gained

variable {s : Store} {more gained gained' : List Ref} {o o' : Offer}

theorem of_nothing (h : o.nodes = []) : s.Gained more o [] := ⟨nofun, h ▸ .slnil, nofun⟩

theorem andThen (h : s.Gained more o gained) (hnone : o.fault = none)
    (h' : s.Gained (more ++ gained) o' gained') :
    s.Gained more (o.andThen o') (gained ++ gained') := by
  rw [Offer.andThen_of_none hnone]
  refine ⟨List.forall_mem_append.2 ⟨h.plain, h'.plain⟩, h.offered.append h'.offered,
    fun r hr => ?_⟩
  have hgained (hr : r ∈ gained) : r ∈ more ∨ r ∈ o.nodes ++ o'.nodes :=
    (h.source r hr).imp_right fun hr => List.mem_append_left _ hr
  rcases List.mem_append.1 hr with hr | hr
  · exact hgained hr
  · rcases h'.source r hr with hr | hr
    · exact (List.mem_append.1 hr).elim .inl hgained
    · exact .inr (List.mem_append_right _ hr)

end Gained

def longer (s : Store) (target : Ref) (items more : List Ref) : Store :=
  s.setData target (.slice (items ++ more))

def Adds (s : Store) (target : Ref) (items : List Ref) (apart : Prop) (o : Offer) (run : Adder) :
    Prop :=
  ∀ more, (∀ r ∈ more, s.isBranch r = false) → ∃ gained,
    run (s.longer target items more) = (o.outcome, s.longer target items (more ++ gained)) ∧
      s.Gained more o gained ∧ (apart → gained = o.nodes)

namespace Adds

variable {s : Store} {target : Ref} {items : List Ref} {apart apart' : Prop} {o o' : Offer}
  {run run' : Adder}

theorem mono (h : s.Adds target items apart o run) (hsub : apart' → apart) :
    s.Adds target items apart' o run := by
  intro more hmore
  obtain ⟨gained, hrun, hgained, hapart⟩ := h more hmore
  exact ⟨gained, hrun, hgained, fun h => hapart (hsub h)⟩

theorem skip : s.Adds target items apart .nothing .skip := fun more _ =>
  ⟨[], by rw [List.append_nil]; rfl, .of_nothing rfl, fun _ => rfl⟩

theorem andThen (h : s.Adds target items apart o run) (h' : s.Adds target items apart' o' run') :
    s.Adds target items (apart ∧ apart') (o.andThen o') (run.andThen run') := by
  intro more hmore
  obtain ⟨gained, hrun, hgained, hapart⟩ := h more hmore
  rw [Adder.andThen, hrun]
  cases hf : o.fault with
  | some e =>
    rw [Offer.andThen_of_some hf]
    exact ⟨gained, by simp only [Offer.outcome, hf], hgained, fun h => hapart h.1⟩
  | none =>
    obtain ⟨gained', hrun', hgained', hapart'⟩ :=
      h' (more ++ gained) (List.forall_mem_append.2 ⟨hmore, hgained.plain⟩)
    refine ⟨gained ++ gained', ?_, hgained.andThen hf hgained', fun h => ?_⟩
    · rw [← List.append_assoc, Offer.andThen_of_none hf]
      simp only [Offer.outcome, hf, hrun']
    · rw [Offer.andThen_of_none hf, hapart h.1, hapart' h.2]

theorem all {f : Ref → Adder} {g : Ref → Offer} {apart : Ref → Prop}
    (h : ∀ r, s.Adds target items (apart r) (g r) (f r)) (rs : List Ref) :
    s.Adds target items (∀ r ∈ rs, apart r) (.all g rs) (.all f rs) := by
  induction rs with
  | nil => exact skip
  | cons r rs ih => exact ((h r).andThen ih).mono List.forall_mem_cons.1

end Adds

section

variable {s : Store} {target value : Ref} {items more : List Ref}

theorem isBranch_longer (r : Ref) : (s.longer target items more).isBranch r = s.isBranch r := by
  rw [isBranch, longer, marks_setData, isBranch]

theorem items?_longer_self (h : s.data target = .slice items) :
    (s.longer target items more).items? target = .ok (items ++ more) := by
  have hlt : target.index < s.size := by
    by_contra hlt
    have hnone : s.nodes[target.index]? = none := Array.getElem?_eq_none (Nat.le_of_not_lt hlt)
    rw [data, node, hnone] at h
    cases h
  rw [items?, longer, data_setData_self s _ hlt]

theorem items?_longer_of_ne {r : Ref} (h : r ≠ target) :
    (s.longer target items more).items? r = s.items? r := by
  have hdata : (s.longer target items more).data r = s.data r := by
    rw [data, longer, setData, node_modify_of_ne s _ h, data]
  rw [items?, hdata, unexpected, kind, hdata, items?, unexpected, kind]

theorem setData_setData (s : Store) (r : Ref) (d d' : Data) :
    (s.setData r d).setData r d' = s.setData r d' := by
  unfold setData modify
  congr 1
  ext i h
  · simp
  · simp only [Array.getElem_modify]
    split <;> rfl

theorem push_longer (h : s.data target = .slice items) (r : Ref) :
    (s.longer target items more).push target r = .ok (s.longer target items (more ++ [r])) := by
  rw [push, items?_longer_self h]
  show Except.ok ((s.setData target _).setData target _) = _
  rw [setData_setData, List.append_assoc]
  rfl

def Apart (s : Store) (target value : Ref) : Prop :=
  s.isBranch target = true → ¬ Relation.ReflTransGen s.Part target value

theorem Apart.part {c : Ref} (h : s.Apart target value) (hc : s.Part c value) : s.Apart target c :=
  fun hb hbelow => h hb (hbelow.tail hc)

theorem offer_of_plain (fuel : Nat) (hmore : ∀ r ∈ more, s.isBranch r = false) :
    (Offer.all (s.offerWithin fuel) more).fault = none ∧
      ∀ r ∈ (Offer.all (s.offerWithin fuel) more).nodes, r ∈ more := by
  induction more with
  | nil => exact ⟨rfl, nofun⟩
  | cons q qs ih =>
    obtain ⟨hq, hqs⟩ := List.forall_mem_cons.1 hmore
    obtain ⟨hfault, hnodes⟩ := ih hqs
    have hself : (s.offerWithin fuel q).fault = none ∧
        ∀ r ∈ (s.offerWithin fuel q).nodes, r = q := by
      cases fuel with
      | zero => exact ⟨rfl, nofun⟩
      | succ fuel => simp [offerWithin, hq, Offer.single]
    rw [Offer.all, Offer.andThen_of_none hself.1]
    refine ⟨hfault, List.forall_mem_append.2 ⟨fun r hr => ?_, fun r hr => ?_⟩⟩
    · exact List.mem_cons.2 (.inl (hself.2 r hr))
    · exact List.mem_cons_of_mem _ (hnodes r hr)

theorem adds_again {fuel : Nat} {apart : List Ref → Prop} {f : Ref → Adder}
    (h : ∀ rs, s.Adds target items (apart rs) (.all (s.offerWithin fuel) rs) (.all f rs))
    (rs : List Ref) (hmore : ∀ r ∈ more, s.isBranch r = false) :
    ∃ gained,
      Adder.all f (rs ++ more) (s.longer target items more) =
          ((Offer.all (s.offerWithin fuel) rs).outcome, s.longer target items (more ++ gained)) ∧
        s.Gained more (.all (s.offerWithin fuel) rs) gained := by
  obtain ⟨gained, hrun, hgained, -⟩ := h rs more hmore
  rw [Adder.all_append, Adder.andThen, hrun]
  cases hf : (Offer.all (s.offerWithin fuel) rs).fault with
  | some e => exact ⟨gained, by simp only [Offer.outcome, hf], hgained⟩
  | none =>
    obtain ⟨hagain, hsource⟩ := offer_of_plain fuel hmore
    obtain ⟨gained', hrun', hgained', -⟩ :=
      h more (more ++ gained) (List.forall_mem_append.2 ⟨hmore, hgained.plain⟩)
    refine ⟨gained ++ gained', ?_, List.forall_mem_append.2 ⟨hgained.plain, hgained'.plain⟩,
      hgained.offered.trans (List.sublist_append_left ..),
        List.forall_mem_append.2 ⟨hgained.source, ?_⟩⟩
    · simp only [Offer.outcome, hf, hrun', hagain, List.append_assoc]
    · intro r hr
      rcases hgained'.source r hr with hr | hr
      · exact (List.mem_append.1 hr).elim .inl (hgained.source r)
      · exact .inl (hsource r hr)

/-- Appending adds to a slice what the value offers. Where the slice is a branch in the value, it is
taken apart with what it has gained so far. -/
theorem adds_appendWithin (h : s.data target = .slice items) (fuel : Nat) (value : Ref) :
    s.Adds target items (s.Apart target value) (s.offerWithin fuel value)
      (appendWithin fuel target value) := by
  induction fuel generalizing value with
  | zero => exact Adds.skip.mono fun _ => trivial
  | succ fuel ih =>
    intro more hmore
    rw [appendWithin_succ, isBranch_longer, offerWithin]
    cases hb : s.isBranch value with
    | false =>
      refine ⟨[value], ?_, ⟨List.forall_mem_singleton.2 hb, .refl _, fun r hr => .inr hr⟩,
        fun _ => rfl⟩
      rw [push_longer h]
      rfl
    | true =>
      by_cases hv : value = target
      · subst hv
        have hi : s.items? value = .ok items := by rw [items?, h]
        obtain ⟨gained, hrun, hgained⟩ := adds_again (fun rs => Adds.all ih rs) items hmore
        simp only [if_true, items?_longer_self h, hi]
        exact ⟨gained, hrun, hgained, fun hapart => absurd .refl (hapart hb)⟩
      · rw [items?_longer_of_ne hv]
        rcases hi : s.items? value with e | items'
        · exact ⟨[], by rw [List.append_nil]; rfl, .of_nothing rfl, fun _ => rfl⟩
        · refine (Adds.all ih items').mono (fun hapart r hr => ?_) more hmore
          exact hapart.part (by rwa [Part, children_of_items? hi])

theorem setData_data (s : Store) (r : Ref) : s.setData r (s.data r) = s := by
  have hnodes : s.nodes.modify r.index (fun n => ⟨s.data r, n.marks⟩) = s.nodes := by
    ext i h h'
    · simp
    · rw [Array.getElem_modify]
      split
      case isTrue heq =>
        subst heq
        have hnode : s.node r = s.nodes[r.index] := by
          rw [node, Array.getElem?_eq_getElem h', Option.getD_some]
        rw [← hnode]
        rfl
      case isFalse => rfl
  rw [setData, modify, hnodes]

theorem longer_eq_self_iff (h : s.data target = .slice items) :
    s.longer target items more = s ↔ more = [] := by
  constructor
  · intro heq
    have hitems : (s.longer target items more).items? target = .ok (items ++ more) :=
      items?_longer_self h
    rw [heq, items?, h] at hitems
    exact List.self_eq_append_right.1 (Except.ok.inj hitems)
  · rintro rfl
    rw [longer, List.append_nil, ← h, setData_data]

end

end Store

-- ---------------------------------------------------------------------------
-- Changes of containers
-- ---------------------------------------------------------------------------

/-- What a change of a node fails with, if it fails. -/
def Mutation.fault? (r : Ref) (s : Store) : Mutation → Option ValueError
  | setKey key value => failure? (s.setKey r key value)
  | deleteKey key => failure? (s.deleteKey r key)
  | setItem index value => failure? (s.setItem r index value)
  | append value => failure? (s.append r value).1
  | set _ | markBranch | markSpread | clearSpread | markIgnored | setNote .. => none
where
  failure? {α : Type} : Except ValueError α → Option ValueError
    | .ok _ => none
    | .error e => some e

/-- What becomes of a store in which a value is appended to a node: the failure, if there is one,
and the store afterwards. -/
structure Store.Appending (s : Store) (target value : Ref) (fault : Option ValueError) (t : Store) :
    Prop where
  succeeds : fault = none ↔ ∃ nodes, s.flatten value = .ok nodes ∧
    (s.kind target = .slice ∨ nodes = [])
  unchanged : t = s ↔ s.kind target ≠ .slice ∨ (s.offer value).nodes = []
  gained {items : List Ref} : s.data target = .slice items → ∃ gained,
    t = s.setData target (.slice (items ++ gained)) ∧ s.Gained [] (s.offer value) gained ∧
      (s.Apart target value → gained = (s.offer value).nodes)

theorem Mutation.run_of_fault {m : Mutation} {r : Ref} {s : Store}
    (hm : ∀ value, m ≠ append value) (h : m.fault? r s ≠ none) : m.run r s = s := by
  have hfailed {α : Type} {x : Except ValueError α} (hx : fault?.failure? x ≠ none) :
      ∃ e, x = .error e := by
    cases x with
    | error e => exact ⟨e, rfl⟩
    | ok a => exact absurd rfl hx
  cases m
  case setKey | setItem | deleteKey =>
    obtain ⟨e, he⟩ := hfailed h
    rw [run, he]
    rfl
  case append value => exact absurd rfl (hm value)
  all_goals exact absurd rfl h

namespace Store

variable {s : Store} {target : Ref}

theorem items_of_kind (h : s.kind target = .slice) : ∃ items, s.data target = .slice items := by
  unfold kind at h
  cases hd : s.data target with
  | slice items => exact ⟨items, rfl⟩
  | scalar x =>
    rw [hd] at h
    cases x <;> cases h
  | map entries =>
    rw [hd] at h
    cases h

theorem fault?_append_eq_none_iff {value : Ref} :
    (Mutation.append value).fault? target s = none ↔ (s.append target value).1 = .ok () := by
  rw [Mutation.fault?]
  rcases (s.append target value).1 with e | ⟨⟩ <;> simp [Mutation.fault?.failure?]

theorem appending_of_slice (hs : ∀ r, s.Grounded r) {items : List Ref}
    (h : s.data target = .slice items) (value : Ref) :
    s.Appending target value ((Mutation.append value).fault? target s)
      ((Mutation.append value).run target s) := by
  have hkind : s.kind target = .slice := by rw [kind, h]; rfl
  obtain ⟨gained, hrun, hgained, hapart⟩ := adds_appendWithin h (s.size + 1) value [] nofun
  rw [(longer_eq_self_iff h).2 rfl, List.nil_append] at hrun
  change s.append target value = _ at hrun
  change s.Gained [] (s.offer value) gained at hgained
  have hempty : gained = [] ↔ (s.offer value).nodes = [] := by
    refine ⟨fun hnil => List.sublist_nil.1 (hnil ▸ hgained.offered), fun hnil => ?_⟩
    refine List.eq_nil_iff_forall_not_mem.2 fun r hr => ?_
    rcases hgained.source r hr with hr | hr
    · cases hr
    · rw [hnil] at hr
      cases hr
  refine ⟨?_, ?_, fun {items'} h' => ?_⟩
  · rw [fault?_append_eq_none_iff, hrun, (hs value).flatten_eq_listed, Offer.outcome_eq_ok_iff]
    exact ⟨fun hfault => ⟨_, Offer.listed_eq_ok_iff.2 ⟨hfault, rfl⟩, .inl hkind⟩,
      fun ⟨_, hlisted, _⟩ => (Offer.listed_eq_ok_iff.1 hlisted).1⟩
  · rw [Mutation.run, hrun, longer_eq_self_iff h, hempty]
    exact (or_iff_right (not_not_intro hkind)).symm
  · cases h.symm.trans h'
    rw [Mutation.run, hrun]
    exact ⟨gained, rfl, hgained, hapart⟩

theorem appending_of_no_slice (hs : ∀ r, s.Grounded r) (h : s.kind target ≠ .slice)
    (value : Ref) :
    s.Appending target value ((Mutation.append value).fault? target s)
      ((Mutation.append value).run target s) := by
  have hrun := appendWithin_refused h (s.size + 1) value
  change s.append target value = ((s.offer value).refused _, s) at hrun
  refine ⟨?_, ?_, fun {items} hitems => ?_⟩
  · rw [fault?_append_eq_none_iff, hrun, (hs value).flatten_eq_listed, Offer.refused_eq_ok_iff]
    simp [Offer.listed_eq_ok_iff, h]
  · rw [Mutation.run, hrun]
    exact iff_of_true rfl (.inl h)
  · rw [kind, hitems] at h
    exact absurd rfl h

end Store

/-- Setting a key, deleting one and setting an item change nothing if they fail. Appending to a node
fails as the offer of the value does, and at its first node if the node is no slice, and then it
changes nothing. A slice keeps its elements and gains what the value offers, also what comes before
a failure. -/
theorem container_changes {s : Store} (hs : ∀ r, s.Grounded r) (target : Ref) :
    (∀ m : Mutation, (∀ value, m ≠ .append value) → m.fault? target s ≠ none →
      m.run target s = s) ∧
      ∀ value, s.Appending target value ((Mutation.append value).fault? target s)
        ((Mutation.append value).run target s) := by
  refine ⟨fun m hm hfault => Mutation.run_of_fault hm hfault, fun value => ?_⟩
  by_cases h : s.kind target = .slice
  · obtain ⟨items, hitems⟩ := Store.items_of_kind h
    exact Store.appending_of_slice hs hitems value
  · exact Store.appending_of_no_slice hs h value

theorem Store.Grounded.markBranch {s : Store} (hs : ∀ r, s.Grounded r) (q r : Ref) :
    (s.markBranch q).Grounded r :=
  (hs r).of_data_eq (fun _ => True) trivial (fun _ _ => trivial) fun _ => data_mark ..

theorem Session.grounded_start (c : Content) (r : Ref) :
    (Session.start c []).2.store.Grounded r := by
  by_cases hr : r.index < (Session.start c []).2.store.size
  · exact (Session.Plain.start c []).forest.grounded hr
  · exact ⟨r, fun c hc => absurd hc.lt hr⟩

/-- The document is `[[], [1, 2]]`. Its second element, a branch, is appended to the first. -/
theorem container_changes_branch :
    let s :=
      (Session.start (.slice [.slice [], .slice [.int 1, .int 2]]) []).2.store.markBranch ⟨3⟩
    (∀ r, s.Grounded r) ∧
      ((Mutation.append ⟨3⟩).run ⟨0⟩ s).items? ⟨0⟩ = .ok [⟨1⟩, ⟨2⟩] := by
  intro s
  have hs : ∀ r, s.Grounded r := Store.Grounded.markBranch (Session.grounded_start _) ⟨3⟩
  have hempty : s.data ⟨0⟩ = .slice [] := rfl
  refine ⟨hs, ?_⟩
  obtain ⟨gained, hrun, -, hapart⟩ := ((container_changes hs ⟨0⟩).2 ⟨3⟩).gained hempty
  rw [hrun, hapart fun hb => absurd hb (by decide +kernel)]
  decide +kernel

/-- The document is `[[], [1, 2]]`. Its second element, a branch, cannot be appended to the first if
the `2` in it is marked as a branch, but the `1` has been added then. And the first element, marked
as a branch, can be appended to the `1`, which is no slice. -/
theorem append_without_check :
    let document := (Session.start (.slice [.slice [], .slice [.int 1, .int 2]]) []).2.store
    let s := (document.markBranch ⟨3⟩).markBranch ⟨2⟩
    let s' := s.markBranch ⟨0⟩
    (∀ r, s.Grounded r) ∧
      (Mutation.append ⟨3⟩).fault? ⟨0⟩ s = some (.unexpectedKind .slice .int) ∧
      s.items? ⟨0⟩ = .ok [] ∧ ((Mutation.append ⟨3⟩).run ⟨0⟩ s).items? ⟨0⟩ = .ok [⟨1⟩] ∧
      (∀ r, s'.Grounded r) ∧ (Mutation.append ⟨0⟩).fault? ⟨1⟩ s' = none ∧
      s'.kind ⟨1⟩ = .int := by
  intro document s s'
  have hs : ∀ r, s.Grounded r :=
    Store.Grounded.markBranch (Store.Grounded.markBranch (Session.grounded_start _) ⟨3⟩) ⟨2⟩
  exact ⟨hs, by decide +kernel, by decide +kernel, by decide +kernel,
    Store.Grounded.markBranch hs ⟨0⟩, by decide +kernel, by decide +kernel⟩

end DocSelect
