import DocSelect.Proofs.Alike.Evaluation
import DocSelect.Proofs.Assignment.Constant

/-!
# The laws of assignment

An assignment to a path replaces the part of the document at the path by the content of the value,
and changes nothing else. The value is evaluated when the path has been, which only adds nodes, so
that it has the content that it has alone. From this follow the laws of a store: what has been
assigned is there, of two assignments the second one counts, and assigning what is there changes
nothing.
-/
namespace DocSelect

variable {settings : Settings} {σ τ : Session} {document target : Ref} {hops : List Hop}
  {p v : Expr}

def Session.value? (settings : Settings) (σ : Session) (e : Expr) (subject : Ref) :
    Option Content :=
  match evaluate settings e subject σ with
  | (.ok r, τ) => some (τ.store.content r)
  | (.error _, _) => none

theorem Session.value?_eq_some_iff {e : Expr} {subject : Ref} {c : Content} :
    σ.value? settings e subject = some c ↔
      ∃ r τ, evaluate settings e subject σ = (.ok r, τ) ∧ τ.store.content r = c := by
  unfold Session.value?
  rcases evaluate settings e subject σ with ⟨_ | r, τ⟩ <;> simp

def Session.assigned (settings : Settings) (σ : Session) (p v : Expr) (subject : Ref) : Session :=
  (evaluate settings (.assign p none v) subject σ).2

-- ---------------------------------------------------------------------------
-- Assigning where a path leads
-- ---------------------------------------------------------------------------

structure Session.Reaches (σ : Session) (document : Ref) (hops : List Hop) (target : Ref) :
    Prop where
  forest : ∃ roots live, document ∈ roots ∧ σ.store.Forest roots live
  walk : σ.store.Walk document hops target
  single : σ.store.isBranch target = false

structure Session.Puts (settings : Settings) (σ : Session) (document : Ref) (hops : List Hop)
    (target : Ref) (p v : Expr) (w : Content) : Prop where
  ok : (σ.value? settings (.assign p none v) document).isSome
  reaches : (σ.assigned settings p v document).Reaches document hops target
  content_eq : (σ.store.content document).replace? hops w =
    some ((σ.assigned settings p v document).store.content document)

namespace Session.Reaches

theorem not_branch (h : σ.Reaches document hops target) : σ.store.isBranch document = false := by
  cases h.walk with
  | here => exact h.single
  | hop hno => exact hno

theorem congr (h : σ.Reaches document hops target) (hτ : σ.Later τ) :
    τ.Reaches document hops target ∧ τ.store.content document = σ.store.content document ∧
      τ.store.content target = σ.store.content target := by
  obtain ⟨roots, live, hdocument, hf⟩ := h.forest
  have hdata (r : Ref) (hr : r.index < σ.store.size) := (hτ.node r hr).data
  have hbranch {r : Ref} (hr : live r) := (hτ.node r (hf.lt hr)).branch
  obtain ⟨path, hpath⟩ := h.walk.follow?
  have htarget := hf.follow (hf.root hdocument) hpath
  refine ⟨⟨⟨roots, live, hdocument, hf.congr_data hτ.size_le hdata⟩, ?_, ?_⟩,
    hf.content_eq (hf.root hdocument) hdata, hf.content_eq htarget hdata⟩
  · exact h.walk.congr live (hf.root hdocument) hf.live_part (fun ha => hdata _ (hf.lt ha)) hbranch
  · exact (hbranch htarget).trans h.single

theorem evaluate_path (settings : Settings) (h : σ.Reaches document hops target)
    (hp : p.steps = hops.map Hop.expr) :
    ∃ τ, evaluate settings p document σ = (.ok target, τ) ∧ σ.Extends τ := by
  obtain ⟨roots, live, hdocument, hf⟩ := h.forest
  obtain ⟨τ, hτ, he⟩ := evaluate_chain_ok settings hf h.walk (hf.root hdocument) (.refl σ)
  exact ⟨τ, (DocSelect.evaluate_path hp h.not_branch).2 he, hτ⟩

theorem value?_path (h : σ.Reaches document hops target) (hp : p.steps = hops.map Hop.expr) :
    σ.value? settings p document = some (σ.store.content target) := by
  obtain ⟨τ, he, hτ⟩ := h.evaluate_path settings hp
  exact Session.value?_eq_some_iff.2 ⟨target, τ, he, (h.congr hτ.later).2.2⟩

theorem at? (h : σ.Reaches document hops target) :
    (σ.store.content document).at? hops = some (σ.store.content target) := by
  obtain ⟨roots, live, hdocument, hf⟩ := h.forest
  exact h.walk.at? (hf.grounded (hf.root hdocument))

theorem set (h : σ.Reaches document hops target) (value : Ref) :
    Reaches { σ with store := σ.store.set target value } document hops target ∧
      (σ.store.content document).replace? hops (σ.store.content value) =
        some ((σ.store.set target value).content document) := by
  obtain ⟨roots, live, hdocument, hf⟩ := h.forest
  obtain ⟨path, hpath⟩ := h.walk.follow?
  have htarget := hf.follow (hf.root hdocument) hpath
  obtain ⟨live', -, hf'⟩ := hf.set htarget value
  have hbefore : σ.store.follow? document [] = some document := rfl
  obtain ⟨hreplace, hwalk⟩ := hf.replace?_set hdocument hbefore h.walk value
  exact ⟨⟨⟨roots, live', hdocument, hf'⟩, hwalk,
    (σ.store.isBranch_set _ _ (hf.lt htarget)).trans h.single⟩, hreplace⟩

/-- An assignment to a path, if the value has this content in every session with more nodes. -/
theorem assign (h : σ.Reaches document hops target)
    (hp : p.steps = hops.map Hop.expr) {w : Content}
    (hv : ∀ τ, σ.Extends τ → ∃ b υ,
      evaluate settings v document τ = (.ok b, υ) ∧ τ.Later υ ∧
      υ.store.content b = w) :
    σ.Puts settings document hops target p v w := by
  obtain ⟨τ, he, hτ⟩ := h.evaluate_path settings hp
  obtain ⟨b, υ, hb, hυ, rfl⟩ := hv τ hτ
  obtain ⟨hreach, -⟩ := h.congr hτ.later
  obtain ⟨hreach', hcontent, -⟩ := h.congr (hτ.later.trans hυ)
  have hname : p.bindable? = none := by
    rcases Expr.path_cases hp with rfl | ⟨hop, -, rfl⟩
    · rfl
    · cases hop <;> rfl
  obtain ⟨result, hassign⟩ := evaluate_assign hname h.not_branch he hreach.single hb
  obtain ⟨hset, hreplace⟩ := hreach'.set b
  have hafter : σ.assigned settings p v document = { υ with store := υ.store.set target b } := by
    rw [assigned, hassign]
  refine ⟨?_, hafter ▸ hset, by rw [hafter, ← hcontent]; exact hreplace⟩
  rw [(Session.value?_eq_some_iff.2 ⟨result, _, hassign, rfl⟩)]
  rfl

end Session.Reaches

-- ---------------------------------------------------------------------------
-- New sessions
-- ---------------------------------------------------------------------------

namespace Session.Plain

theorem reaches (h : σ.Plain [document]) (hp : p.steps = hops.map Hop.expr)
    (he : evaluate settings p document σ = (.ok target, τ)) :
    σ.Reaches document hops target := by
  have hplain (r : Ref) : σ.store.isBranch r = false := by
    rw [Store.isBranch, h.unmarked r]
    rfl
  have hchain := (DocSelect.evaluate_path hp (hplain document)).1 he
  have hroot : document ∈ [document] ++ σ.bindings.values := List.mem_cons_self
  obtain ⟨hwalk, -⟩ := walk_of_evaluate_chain h.forest (fun r _ => hplain r)
    (h.forest.root hroot) (.refl σ) hchain
  exact ⟨⟨_, _, hroot, h.forest⟩, hwalk, hplain target⟩

theorem alike {outside : List Ref} (h : σ.Plain outside) (hτ : σ.Extends τ) :
    σ.Alike (fun a b => a = b ∧ a.index < σ.store.size) τ := by
  have hrefl {d : Data} (hd : ∀ c ∈ d.children, c.index < σ.store.size) :
      d.Alike (fun a b => a = b ∧ a.index < σ.store.size) d := by
    cases d with
    | scalar a => exact .scalar a
    | slice items => exact .slice (List.forall₂_same.2 fun c hc => ⟨rfl, hd c hc⟩)
    | map entries =>
      exact .map (List.forall₂_same.2 fun e he =>
        ⟨rfl, rfl, hd e.2 (List.mem_map.2 ⟨e, he, rfl⟩)⟩)
  refine ⟨⟨?_, ?_, ?_, ?_, ?_, ?_⟩, ?_⟩
  · rintro a a' b ⟨rfl, -⟩ ⟨rfl, -⟩
    rfl
  · rintro a b b' ⟨rfl, -⟩ ⟨rfl, -⟩
    rfl
  · rintro a b ⟨rfl, ha⟩
    exact ⟨ha, Nat.lt_of_lt_of_le ha hτ.size_le⟩
  · rintro a b ⟨rfl, ha⟩
    rw [hτ.data ha]
    exact hrefl fun c hc => h.forest.live_part ha hc
  · rintro a b ⟨rfl, ha⟩
    rw [hτ.marks ha]
    exact ⟨rfl, rfl, rfl⟩
  · rintro a b ⟨rfl, ha⟩
    exact h.forest.grounded ha
  · rw [hτ.bindings]
    refine List.forall₂_same.2 fun e he => ⟨rfl, rfl, h.forest.root ?_⟩
    exact List.mem_append_right _ (List.mem_map.2 ⟨e, he, rfl⟩)

end Session.Plain

theorem value?_extends (hg : settings.Respectful) {outside : List Ref} (h : σ.Plain outside)
    (hdocument : document.index < σ.store.size) {w : Content}
    (hw : σ.value? settings v document = some w) (hτ : σ.Extends τ) :
    ∃ b υ, evaluate settings v document τ = (.ok b, υ) ∧ υ.store.content b = w := by
  obtain ⟨a, σ', ha, rfl⟩ := Session.value?_eq_some_iff.1 hw
  obtain ⟨l, -, hstores, hresults⟩ := evaluate_alike hg v ⟨rfl, hdocument⟩ (h.alike hτ)
  rw [ha] at hstores hresults
  rcases he : evaluate settings v document τ with ⟨x, υ⟩
  rw [he] at hstores hresults
  cases hresults with
  | @ok _ b hab => exact ⟨b, υ, rfl, (hstores.store.content_eq hab).symm⟩

-- ---------------------------------------------------------------------------
-- The laws
-- ---------------------------------------------------------------------------

theorem Hop.assignFree_expr (hop : Hop) : hop.expr.assignFree = true := by cases hop <;> rfl

theorem Expr.assignFree_path (hp : p.steps = hops.map Hop.expr) : p.assignFree = true := by
  rcases Expr.path_cases hp with rfl | ⟨hop, -, rfl⟩
  · have hall (hops : List Hop) :
        allList (fun part => !part.isAssign) (hops.map Hop.expr) = true := by
      induction hops with
      | nil => rfl
      | cons hop rest ih =>
        rw [List.map_cons, allList, ih, Bool.and_true]
        exact hop.assignFree_expr
    rw [assignFree, all, hall]
    rfl
  · exact hop.assignFree_expr

theorem Session.Reaches.assign_constant (settings : Settings) (h : σ.Reaches document hops target)
    (hp : p.steps = hops.map Hop.expr) {c : Expr} {w : Content} (hc : c.constant? = some w) :
    σ.Puts settings document hops target p c w := by
  obtain ⟨roots, live, hdocument, hf⟩ := h.forest
  have hlt := hf.lt (hf.root hdocument)
  refine h.assign hp fun τ hτ => ?_
  obtain ⟨b, υ, he, hυ, hb⟩ : Makes settings (c.step document) τ w := makes_constant c hc
    ((hτ.isBranch hlt).trans h.not_branch) (Nat.lt_of_lt_of_le hlt hτ.size_le)
  exact ⟨b, υ, he, hυ.later, (hb.holds (.refl υ)).content_eq⟩

namespace Session.Plain

theorem assign (hg : settings.Gentle) (hr : settings.Respectful) (h : σ.Plain [document])
    (hreach : σ.Reaches document hops target) (hp : p.steps = hops.map Hop.expr)
    (hv : v.assignFree = true) {w : Content} (hw : σ.value? settings v document = some w) :
    σ.Puts settings document hops target p v w := by
  refine hreach.assign hp fun τ hτ => ?_
  have hlt := h.forest.lt (h.forest.root (List.mem_cons_self (a := document)))
  obtain ⟨b, υ, he, hcontent⟩ := value?_extends hr h hlt hw hτ
  have hlater := evaluate_leads_of_assignFree Session.Later.tolerant hg hv document τ
  rw [he] at hlater
  exact ⟨b, υ, he, hlater, hcontent⟩

end Session.Plain

/-- For a path that evaluates on a document: an assignment of a value, without assignments in it,
puts the value's content at the path and changes nothing else, and the path then has that content;
of two assignments of constants the second one counts; and assigning a path to itself changes
nothing. -/
theorem assignment_laws (files : FileSystem) (environment : Environment) (limit : Nat)
    (content : Content) (vars : List (String × Content)) {p : Expr} {hops : List Hop}
    (hp : p.steps = hops.map Hop.expr) :
    let settings : Settings := ⟨Registry.builtins files, environment, limit⟩
    let (document, σ) := Session.start content vars
    (σ.value? settings p document).isSome →
      (∀ v w, v.assignFree = true → σ.value? settings v document = some w →
        (σ.value? settings (.assign p none v) document).isSome ∧
        (σ.store.content document).replace? hops w =
          some ((σ.assigned settings p v document).store.content document) ∧
        (σ.assigned settings p v document).value? settings p document = some w) ∧
      (∀ c₁ c₂ : Expr, c₁.constant?.isSome → c₂.constant?.isSome →
        let τ := σ.assigned settings p c₁ document
        (σ.value? settings (.assign p none c₁) document).isSome ∧
        (τ.value? settings (.assign p none c₂) document).isSome ∧
        (τ.assigned settings p c₂ document).store.content document =
          (σ.assigned settings p c₂ document).store.content document) ∧
      (σ.value? settings (.assign p none p) document).isSome ∧
      (σ.assigned settings p p document).store.content document = σ.store.content document := by
  intro settings
  have h := Session.Plain.start content vars
  have hg := Settings.gentle_builtins files environment limit
  have hr := Settings.respectful_builtins files environment limit
  generalize Session.start content vars = start at h ⊢
  obtain ⟨document, σ⟩ := start
  intro hpath
  obtain ⟨u, hu⟩ := Option.isSome_iff_exists.1 hpath
  obtain ⟨target, τ, he, -⟩ := Session.value?_eq_some_iff.1 hu
  have hreach : σ.Reaches document hops target := h.reaches hp he
  refine ⟨fun v w hv hw => ?_, fun c₁ c₂ h₁ h₂ => ?_, ?_⟩
  · have hput := h.assign hg hr hreach hp hv hw
    refine ⟨hput.ok, hput.content_eq, ?_⟩
    rw [hput.reaches.value?_path hp, ← hput.reaches.at?, Content.at?_replace? hput.content_eq]
  · obtain ⟨w₁, h₁⟩ := Option.isSome_iff_exists.1 h₁
    obtain ⟨w₂, h₂⟩ := Option.isSome_iff_exists.1 h₂
    have hput₁ := hreach.assign_constant settings hp h₁
    have hput₂ := hput₁.reaches.assign_constant settings hp h₂
    have hput := hreach.assign_constant settings hp h₂
    refine ⟨hput₁.ok, hput₂.ok, Option.some.inj ?_⟩
    rw [← hput₂.content_eq, ← hput.content_eq, Content.replace?_replace? hput₁.content_eq]
  · have hput := h.assign hg hr hreach hp (Expr.assignFree_path hp) (hreach.value?_path hp)
    refine ⟨hput.ok, Option.some.inj ?_⟩
    rw [← hput.content_eq, Content.replace?_at? hreach.at?]

/-- The last element of a list becomes the whole document, or one constant after the other, or
itself. -/
theorem assignment_laws_last_element :
    let settings : Settings := ⟨Registry.builtins FileSystem.bare, fun _ => none, 10⟩
    let content : Content := .map [("a", .slice [.int 1, .int 2]), ("b", .int 3)]
    let p := Expr.chain [.property "a", .index (.integer (-1))]
    let (document, σ) := Session.start content []
    (σ.assigned settings p (.var Step.subjectName) document).store.content document =
        .map [("a", .slice [.int 1, content]), ("b", .int 3)] ∧
      ((σ.assigned settings p (.array [.null]) document).assigned settings p
          (.string "c") document).store.content document =
        (σ.assigned settings p (.string "c") document).store.content document ∧
      (σ.assigned settings p p document).store.content document = content := by
  intro settings content p
  have hp : p.steps = [Hop.property "a", .index (-1)].map Hop.expr := rfl
  obtain ⟨hvalue, hconstants, -, hitself⟩ :=
    assignment_laws FileSystem.bare (fun _ => none) 10 content [] hp rfl
  obtain ⟨-, hcontent, -⟩ := hvalue (.var Step.subjectName) content rfl rfl
  obtain ⟨-, -, hlast⟩ := hconstants (.array [.null]) (.string "c") rfl rfl
  exact ⟨(Option.some.inj hcontent).symm, hlast, hitself⟩

end DocSelect
