import DocSelect.Proofs.Alike.Evaluation
import DocSelect.Proofs.Marks
import DocSelect.Proofs.Soundness.Evaluation

/-!
# What an evaluation can come to

An evaluation comes to the nodes below its subject and below the values of variables, and to new
ones. A session is alike to one that has nothing but these, so that what is known of them is known
of all nodes there. Under regular settings it stays so.
-/
namespace DocSelect

/-- The nodes that an evaluation on this subject can come to. -/
def Session.Live (σ : Session) (subject r : Ref) : Prop :=
  ∃ root ∈ subject :: σ.bindings.values, Relation.ReflTransGen σ.store.Part r root

namespace Session.Live

variable {σ : Session} {subject r c : Ref}

theorem refl (σ : Session) (subject : Ref) : σ.Live subject subject :=
  ⟨subject, List.mem_cons_self, .refl⟩

theorem of_value (h : r ∈ σ.bindings.values) : σ.Live subject r :=
  ⟨r, List.mem_cons_of_mem _ h, .refl⟩

theorem part (h : σ.Live subject r) (hc : σ.store.Part c r) : σ.Live subject c :=
  let ⟨root, hroot, hr⟩ := h
  ⟨root, hroot, .head hc hr⟩

theorem known {w : Concern} (h : σ.Live subject r) (hσ : σ.Sound w)
    (hsub : σ.store.Known subject) : σ.store.Known r := by
  obtain ⟨root, hroot, hr⟩ := h
  have hknown : σ.store.Known root := by
    rcases List.mem_cons.1 hroot with rfl | hroot
    · exact hsub
    · exact hσ.bindings hroot
  rcases hr.cases_head with rfl | ⟨_, hc, -⟩
  · exact hknown
  · exact hσ.store.part_known hc

end Session.Live

-- ---------------------------------------------------------------------------
-- Trimmed stores
-- ---------------------------------------------------------------------------

/-- Stores in which some nodes, and with them those below, hold the same and are marked alike. -/
theorem Store.Alike.of_kept {s t : Store} {live : Ref → Prop}
    (hknown : ∀ {r}, live r → s.Known r ∧ t.Known r)
    (hgrounded : ∀ {r}, live r → s.Grounded r)
    (hclosed : ∀ {r c}, live r → s.Part c r → live c)
    (hdata : ∀ {r}, live r → t.data r = s.data r)
    (hmarks : ∀ {r}, live r → (s.marks r).Alike (t.marks r)) :
    s.Alike (fun a b => a = b ∧ live a) t where
  left := by
    rintro a a' b ⟨rfl, -⟩ ⟨rfl, -⟩
    rfl
  right := by
    rintro a b b' ⟨rfl, -⟩ ⟨rfl, -⟩
    rfl
  lt := by
    rintro a b ⟨rfl, ha⟩
    exact hknown ha
  data := by
    rintro a b ⟨rfl, ha⟩
    have hparts (c : Ref) (hc : c ∈ (s.data a).children) : c = c ∧ live c :=
      ⟨rfl, hclosed ha hc⟩
    rw [hdata ha]
    cases hd : s.data a with
    | scalar => exact .scalar _
    | slice items =>
      rw [hd] at hparts
      exact .slice (List.forall₂_same.2 hparts)
    | map entries =>
      rw [hd] at hparts
      exact .map (List.forall₂_same.2 fun e he => ⟨rfl, hparts e.2 (List.mem_map_of_mem he)⟩)
  marks := by
    rintro a b ⟨rfl, ha⟩
    exact hmarks ha
  grounded := fun ⟨_, ha⟩ => hgrounded ha

namespace Store

structure Trimmed (s t : Store) (live : Ref → Prop) : Prop where
  size_eq : t.size = s.size
  node_eq {r : Ref} : live r → t.node r = s.node r
  gone {r : Ref} : ¬ live r → t.node r = default

variable {s t : Store} {live : Ref → Prop} {r c : Ref}

theorem exists_trimmed (s : Store) (live : Ref → Prop) : ∃ t, s.Trimmed t live := by
  classical
  refine ⟨⟨s.nodes.mapIdx fun i n => if live ⟨i⟩ then n else default⟩,
    by simp [size], ?_, ?_⟩
  · intro r hr
    unfold node
    rw [Array.getElem?_mapIdx]
    rcases s.nodes[r.index]? with _ | n
    · rfl
    · exact if_pos hr
  · intro r hr
    unfold node
    rw [Array.getElem?_mapIdx]
    rcases s.nodes[r.index]? with _ | n
    · rfl
    · exact if_neg hr

namespace Trimmed

variable (h : s.Trimmed t live)
include h

theorem data_eq (hr : live r) : t.data r = s.data r := congrArg Node.data (h.node_eq hr)

theorem marks_eq (hr : live r) : t.marks r = s.marks r := congrArg Node.marks (h.node_eq hr)

theorem known (hr : s.Known r) : t.Known r := by rwa [Known, h.size_eq]

theorem part (hc : t.Part c r) : live r ∧ s.Part c r := by
  by_cases hr : live r
  · exact ⟨hr, by rwa [Part, h.data_eq hr] at hc⟩
  · rw [Part, data, h.gone hr] at hc
    exact absurd hc List.not_mem_nil

theorem bears {P : Marks → Prop} (hnone : P Marks.none)
    (hlive : ∀ r, live r → P (s.marks r)) : t.Bears P := by
  intro r
  by_cases hr : live r
  · rw [h.marks_eq hr]
    exact hlive r hr
  · rw [marks, h.gone hr]
    exact hnone

variable (hs : s.Sound .soundness) (hknown : ∀ {r}, live r → s.Known r)
  (hclosed : ∀ {r c}, live r → s.Part c r → live c)
include hs hknown hclosed

theorem alike : s.Alike (fun a b => a = b ∧ live a) t :=
  .of_kept (fun hr => ⟨hknown hr, h.known (hknown hr)⟩)
    (fun _ => hs.grounded _) hclosed h.data_eq
    fun hr => by rw [h.marks_eq hr]; exact ⟨rfl, rfl, rfl⟩

theorem sound : t.Sound .soundness where
  part_known hc :=
    let ⟨hr, hc⟩ := h.part hc
    h.known (hknown (hclosed hr hc))
  grounded r := by
    by_cases hr : live r
    · exact (hs.grounded r).of_data_eq live hr (fun ha hc => hclosed ha hc) h.data_eq
    · exact ⟨r, fun c hc => absurd (h.part hc).1 hr⟩
  flat r hb := by
    by_cases hr : live r
    · rw [isBranch, h.marks_eq hr] at hb
      obtain ⟨items, hd, hitems⟩ := hs.flat r hb
      refine ⟨items, by rw [h.data_eq hr, hd], fun c hc => ?_⟩
      rw [isBranch, h.marks_eq (hclosed hr (by rwa [Part, hd]))]
      exact hitems c hc
    · rw [isBranch, marks, h.gone hr] at hb
      cases hb
  settled hw := absurd hw (by decide)

end Trimmed

end Store

/-- A sound session is alike to a sound one in which all nodes have such marks as the nodes have
here that an evaluation can come to. -/
theorem Session.Sound.exists_alike {σ : Session} {subject : Ref} {P : Marks → Prop}
    (h : σ.Sound .soundness) (hsub : σ.store.Known subject) (hnone : P Marks.none)
    (hlive : ∀ r, σ.Live subject r → P (σ.store.marks r)) :
    ∃ m τ, σ.Alike m τ ∧ m subject subject ∧ τ.Sound .soundness ∧ τ.store.Bears P := by
  obtain ⟨t, ht⟩ := σ.store.exists_trimmed (σ.Live subject)
  have hknown {r : Ref} (hr : σ.Live subject r) : σ.store.Known r := hr.known h hsub
  have halike := ht.alike h.store hknown fun hr hc => hr.part hc
  have hsound := ht.sound h.store hknown fun hr hc => hr.part hc
  refine ⟨_, ⟨t, σ.bindings⟩, ⟨halike, ?_⟩, ⟨rfl, .refl σ subject⟩,
    ⟨hsound, fun hr => ?_⟩, ht.bears hnone hlive⟩
  · exact List.forall₂_same.2 fun e he => ⟨rfl, rfl, .of_value (List.mem_map_of_mem he)⟩
  · exact ht.known (h.bindings hr)

/-- Settings whose functions do the same for paired nodes and keep sessions sound. Only calls of one
function make ignored nodes, and no function makes a spread. -/
structure Settings.Regular (settings : Settings) : Prop where
  respectful : settings.Respectful
  keeping : settings.Keeping .soundness
  shown : Permits settings (fun σ τ => σ.store.Bears Marks.Shown → τ.store.Bears Marks.Shown)
    fun part => !part.isCallOf "ignore"
  whole : Permits settings (fun σ τ => σ.store.Bears Marks.Whole → τ.store.Bears Marks.Whole)
    fun part => !part.isSpread

theorem Settings.regular_builtins (files : FileSystem) (environment : Environment) (limit : Nat) :
    Regular ⟨Registry.builtins files, environment, limit⟩ :=
  ⟨respectful_builtins files environment limit,
    keeping_builtins .soundness files environment limit, permits_ignoreFree, permits_spreadFree⟩

end DocSelect
