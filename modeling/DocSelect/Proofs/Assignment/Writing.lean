import DocSelect.Proofs.Forest
import DocSelect.Value.Hop

/-!
# Writing at the end of a walk

A walk looks up one part after the other. Writing into the node where it ends replaces, in the
content of the node where it began, the part at the end of the hops, and nothing else: the nodes on
the way stay, and since nothing is shared, no other way leads to the node that is written.
-/
namespace DocSelect

-- ---------------------------------------------------------------------------
-- The parts of a node and of its content
-- ---------------------------------------------------------------------------

namespace Data

variable {d : Data} {f g : Ref → Content} {slot : Slot} {c : Ref}

theorem length_contentWith : (d.contentWith f).length = d.children.length := by
  cases d <;> simp [contentWith, Content.length, children, Dict.values]

theorem part?_contentWith (h : d.part? slot = some c) :
    (d.contentWith f).part? slot = some (f c) := by
  cases d <;> cases slot <;> simp only [part?, reduceCtorEq] at h
  · simp [contentWith, Content.part?, h]
  · rename_i entries key
    have hlist {es : List (String × Ref)} (hc : Assoc.find? key es = some c) :
        Assoc.find? key (es.map fun e => (e.1, f e.2)) = some (f c) := by
      induction es with
      | nil => simp [Assoc.find?] at hc
      | cons e es ih =>
        by_cases hk : e.1 = key
        · simp only [Assoc.find?, hk, if_true, Option.some.injEq] at hc
          simp [Assoc.find?, hk, hc]
        · simp only [Assoc.find?, hk, if_false] at hc
          simp [Assoc.find?, hk, ih hc]
    exact hlist h

theorem contentWith_eq_setPart (h : d.part? slot = some c)
    (hother : ∀ other a, other ≠ slot → d.part? other = some a → g a = f a) :
    d.contentWith g = (d.contentWith f).setPart slot (g c) := by
  cases d <;> cases slot <;> simp only [part?, reduceCtorEq] at h
  · rename_i items i
    refine congrArg Content.slice (List.ext_getElem (by simp) fun j hj _ => ?_)
    rw [List.length_map] at hj
    have hpart : (Data.slice items).part? (.position j) = some items[j] :=
      List.getElem?_eq_getElem hj
    by_cases hji : i = j
    · subst hji
      rw [List.getElem?_eq_getElem hj, Option.some.injEq] at h
      simp [h]
    · simpa [hji] using hother _ _ (fun heq => hji (Slot.position.inj heq).symm) hpart
  · rename_i entries key
    have hlist {es : List (String × Ref)} (hn : (Assoc.keys es).Nodup)
        (hes : ∀ e ∈ es, e.1 ≠ key → g e.2 = f e.2) (hc : Assoc.find? key es = some c) :
        (es.map fun e => (e.1, g e.2)) = Assoc.insert key (g c) (es.map fun e => (e.1, f e.2)) := by
      induction es with
      | nil => simp [Assoc.find?] at hc
      | cons e es ih =>
        simp only [Assoc.keys, List.map_cons, List.nodup_cons] at hn
        by_cases hk : e.1 = key
        · have hrest : ∀ e' ∈ es, (e'.1, g e'.2) = (e'.1, f e'.2) := fun e' he' => by
            have hne : e'.1 ≠ key :=
              fun heq => hn.1 (hk ▸ heq ▸ List.mem_map.2 ⟨e', he', rfl⟩)
            rw [hes e' (List.mem_cons_of_mem _ he') hne]
          simp only [Assoc.find?, hk, if_true, Option.some.injEq] at hc
          simp [Assoc.insert, hk, hc, List.map_congr_left hrest]
        · simp only [Assoc.find?, hk, if_false] at hc
          have htail := ih hn.2 (fun e he => hes e (List.mem_cons_of_mem _ he)) hc
          simp [Assoc.insert, hk, hes e List.mem_cons_self hk, htail]
    refine congrArg Content.map (hlist entries.nodup (fun e he hne => ?_) h)
    exact hother (.key e.1) e.2 (fun heq => hne (Slot.key.inj heq)) (entries.find?_of_mem he)

end Data

namespace Store

-- ---------------------------------------------------------------------------
-- Walks
-- ---------------------------------------------------------------------------

def hop? (s : Store) (r : Ref) : Hop → Except ValueError Ref
  | .property name | .key name => s.key? r name
  | .index i => s.item? r i

inductive Walk (s : Store) : Ref → List Hop → Ref → Prop where
  | here (r : Ref) : Walk s r [] r
  | hop {r c target : Ref} {hop : Hop} {rest : List Hop} : s.isBranch r = false →
    s.hop? r hop = .ok c → Walk s c rest target → Walk s r (hop :: rest) target

variable {s t : Store} {r c target : Ref} {hops : List Hop}

theorem part?_of_hop? {hop : Hop} (h : s.hop? r hop = .ok c) :
    ∃ slot, hop.slot? (s.data r).children.length = some slot ∧ s.part? r slot = some c := by
  have hkey {name : String} (h : s.key? r name = .ok c) : s.part? r (.key name) = some c := by
    rcases hd : s.data r with a | items | entries <;>
      simp only [key?, entries?, unexpected, hd, bind, Except.bind, reduceCtorEq] at h
    rw [part?, hd, Data.part?]
    split at h
    · rename_i hfind
      rw [hfind, Except.ok.inj h]
    · cases h
  cases hop with
  | property name => exact ⟨_, rfl, hkey h⟩
  | key name => exact ⟨_, rfl, hkey h⟩
  | index i =>
    rcases hd : s.data r with a | items | entries <;>
      simp only [hop?, item?, items?, unexpected, hd, bind, Except.bind, reduceCtorEq] at h
    rcases hp : position? i items.length with e | n <;> simp only [hp, reduceCtorEq] at h
    refine ⟨.position n, by simp only [Hop.slot?, Data.children, hp]; rfl, ?_⟩
    rw [part?, hd, Data.part?]
    split at h
    · rename_i hitem
      rw [hitem, Except.ok.inj h]
    · cases h

theorem hop?_congr (hdata : t.data r = s.data r) (hop : Hop) : t.hop? r hop = s.hop? r hop := by
  cases hop <;> simp only [hop?, key?, entries?, item?, items?, unexpected, kind, hdata]

namespace Walk

theorem follow? (h : s.Walk r hops target) : ∃ path, s.follow? r path = some target := by
  induction h with
  | here r => exact ⟨[], rfl⟩
  | hop _ hop _ ih =>
    obtain ⟨slot, -, hpart⟩ := part?_of_hop? hop
    obtain ⟨path, hpath⟩ := ih
    exact ⟨slot :: path, by rw [Store.follow?, hpart]; exact hpath⟩

theorem at? (h : s.Walk r hops target) (hg : s.Grounded r) :
    (s.content r).at? hops = some (s.content target) := by
  induction h with
  | here r => rfl
  | @hop r c target hop rest _ hhop _ ih =>
    obtain ⟨slot, hslot, hpart⟩ := part?_of_hop? hhop
    have hc : s.Grounded c := hg.part (Data.mem_children_iff.2 ⟨slot, hpart⟩)
    rw [hg.content_eq]
    simp only [Content.at?, Data.length_contentWith, hslot, Option.bind_eq_bind, Option.bind_some,
      Data.part?_contentWith hpart]
    exact ih hc

theorem congr (h : s.Walk r hops target) (kept : Ref → Prop) (hr : kept r)
    (hpart : ∀ {a c : Ref}, kept a → s.Part c a → kept c)
    (hdata : ∀ {a : Ref}, kept a → t.data a = s.data a)
    (hbranch : ∀ {a : Ref}, kept a → t.isBranch a = s.isBranch a) : t.Walk r hops target := by
  induction h with
  | here r => exact .here r
  | hop hno hhop _ ih =>
    obtain ⟨slot, -, hslot⟩ := part?_of_hop? hhop
    have hc := hpart hr (Data.mem_children_iff.2 ⟨slot, hslot⟩)
    exact .hop ((hbranch hr).trans hno) ((hop?_congr (hdata hr) _).trans hhop) (ih hc)

end Walk

-- ---------------------------------------------------------------------------
-- Writing
-- ---------------------------------------------------------------------------

theorem isBranch_setData (s : Store) (q r : Ref) (d : Data) :
    (s.setData r d).isBranch q = s.isBranch q := by
  rw [isBranch, marks_setData, isBranch]

theorem data_set_of_ne (s : Store) (value : Ref) (hr : r.index < s.size) (hne : r ≠ target) :
    (s.set target value).data r = s.data r := by
  obtain ⟨roots, hg, -⟩ := grown_copyData s value
  simp only [set, data, setData, node_modify_of_ne _ _ hne, hg.node_old hr]

theorem isBranch_set (s : Store) (target value : Ref) (hr : r.index < s.size) :
    (s.set target value).isBranch r = s.isBranch r := by
  obtain ⟨roots, hg, -⟩ := grown_copyData s value
  simp only [set, isBranch_setData]
  rw [isBranch, marks, hg.node_old hr, isBranch, marks]

namespace Forest

variable {roots : List Ref} {live : Ref → Prop}

theorem content_set_of_not_follow (h : s.Forest roots live) (hr : live r)
    (hno : ∀ path, s.follow? r path ≠ some target) (value : Ref) :
    (s.set target value).content r = s.content r := by
  refine (Holds.of_data_eq (fun a => ∃ path, s.follow? r path = some a)
    ⟨h.grounded hr, rfl⟩ ⟨[], rfl⟩ ?_ ?_).content_eq
  · rintro a c ⟨path, hpath⟩ hc
    obtain ⟨slot, hslot⟩ := Data.mem_children_iff.1 hc
    exact ⟨path ++ [slot], by rw [follow?_concat, hpath]; exact hslot⟩
  · rintro a ⟨path, hpath⟩
    refine s.data_set_of_ne value (h.lt (h.follow hr hpath)) ?_
    rintro rfl
    exact hno path hpath

theorem replace?_set (h : s.Forest roots live) {root : Ref} (hroot : root ∈ roots)
    {before : List Slot} (hbefore : s.follow? root before = some r) (hw : s.Walk r hops target)
    (value : Ref) :
    (s.content r).replace? hops (s.content value) = some ((s.set target value).content r) ∧
      (s.set target value).Walk r hops target := by
  have hlive {r : Ref} {path : List Slot} (hp : s.follow? root path = some r) : live r :=
    h.follow (h.root hroot) hp
  induction hw generalizing before with
  | here r =>
    refine ⟨?_, .here r⟩
    rw [(s.holds_set_self (h.lt (hlive hbefore)) value).content_eq, Content.replace?]
  | @hop r c target hop rest hno hhop hrest ih =>
    obtain ⟨slot, hslot, hpart⟩ := part?_of_hop? hhop
    obtain ⟨path, hpath⟩ := hrest.follow?
    have hto : s.follow? root (before ++ slot :: path) = some target := by
      rw [follow?_append, hbefore, Option.bind_some, Store.follow?, hpart]
      exact hpath
    -- every way from the root to the written node is this one
    have huniq {way : List Slot} (hway : s.follow? root way = some target) :
        way = before ++ slot :: path := (h.follow_inj hroot hroot hway hto).2
    have hne : r ≠ target := by
      rintro rfl
      have hlen := congrArg List.length (huniq hbefore)
      simp at hlen
    have hr := hlive hbefore
    have hnext : s.follow? root (before ++ [slot]) = some c := by
      rw [follow?_concat, hbefore]
      exact hpart
    obtain ⟨hrep, hwalk⟩ := ih hnext
    have hdata := s.data_set_of_ne value (h.lt hr) hne
    obtain ⟨live', hsub, hforest⟩ := h.set (hlive hto) value
    have hothers (other : Slot) (a : Ref) (hso : other ≠ slot)
        (ha : (s.data r).part? other = some a) : (s.set target value).content a = s.content a := by
      refine h.content_set_of_not_follow (h.part hr ha) (fun way hway => hso ?_) value
      have hto' : s.follow? root (before ++ other :: way) = some target := by
        rw [follow?_append, hbefore, Option.bind_some, Store.follow?, Store.part?, ha]
        exact hway
      exact (List.cons.inj (List.append_cancel_left (huniq hto'))).1
    refine ⟨?_, .hop ((s.isBranch_set _ _ (h.lt hr)).trans hno)
      ((hop?_congr hdata hop).trans hhop) hwalk⟩
    rw [(hforest.grounded (hsub r hr)).content_eq, hdata, Data.contentWith_eq_setPart hpart hothers,
      (h.grounded hr).content_eq]
    simp only [Content.replace?, Data.length_contentWith, hslot, Option.bind_eq_bind,
      Option.bind_some, Data.part?_contentWith hpart, hrep, Option.pure_def]

end Forest

end Store

end DocSelect
