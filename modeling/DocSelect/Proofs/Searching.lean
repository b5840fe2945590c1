import DocSelect.Proofs.Alike.Trim
import DocSelect.Proofs.Forest
import DocSelect.Proofs.Listing
import DocSelect.Proofs.Quiet
import DocSelect.Proofs.Searching.Preorder

/-!
# Searching

A search goes down into each part of a node after it has looked at the part itself. As long as the
predicate writes nothing, this is one loop over the list of all that is below the subject, which
visits each entry once and stops at the first node on which the predicate fails.
-/
namespace DocSelect

variable {settings : Settings} {σ τ : Session} {p : Expr} {f : Step} {r c subject : Ref}
  {nodes : List Ref}

-- ---------------------------------------------------------------------------
-- What a predicate says
-- ---------------------------------------------------------------------------

namespace Session

/-- What a predicate says of a node: that it misses something there counts as false, and a result
that is no boolean as an error. -/
def verdict (settings : Settings) (p : Expr) (σ : Session) (r : Ref) : Except EvalError Bool :=
  match evaluate settings p r σ with
  | (.ok q, τ) => (τ.store.bool? q).mapError .value
  | (.error x, _) => if x.isMiss then .ok false else .error x

/-- Some nodes with what a predicate says of them one after the other, of each in the session that
those before it have left. -/
def judged (settings : Settings) (p : Expr) :
    Session → List Ref → List (Ref × Except EvalError Bool)
  | _, [] => []
  | σ, r :: rest =>
    (r, σ.verdict settings p r) :: judged settings p (evaluate settings p r σ).2 rest

/-- The session that is left when the predicate has been evaluated on these nodes, one after the
other. -/
def visit (settings : Settings) (p : Expr) (σ : Session) (nodes : List Ref) : Session :=
  nodes.foldl (fun τ r => (evaluate settings p r τ).2) σ

end Session

theorem exec_holdsOn : (Step.holdsOn p.step r).exec settings σ =
    (σ.verdict settings p r, (evaluate settings p r σ).2) := by
  rw [Step.holdsOn, Eval.exec_bind, Eval.exec_tryCatch, map_eq_pure_bind, Eval.exec_bind,
    Session.verdict, evaluate_eq_exec]
  rcases (p.step r).exec settings σ with ⟨x | q, τ⟩
  · dsimp only
    cases x.isMiss <;> rfl
  · dsimp only
    rw [Eval.exec_pure]
    dsimp only
    rw [Eval.exec_ask]

-- ---------------------------------------------------------------------------
-- One loop
-- ---------------------------------------------------------------------------

namespace Step

def held (f : Step) : List Ref → Eval (List Ref)
  | [] => return []
  | r :: rest => do
    let found ← holdsOn f r
    return (if found then [r] else []) ++ (← held f rest)

theorem held_append (f : Step) (xs ys : List Ref) :
    held f (xs ++ ys) = do return (← held f xs) ++ (← held f ys) := by
  induction xs with
  | nil => simp [held]
  | cons x xs ih => simp [held, ih, -List.append_assoc, ← List.append_assoc]

theorem leads_held {R : Session → Session → Prop} (hR : Lenient R) (hf : Leads settings R f)
    (refs : List Ref) : Eval.Leads settings R (held f refs) := by
  induction refs with
  | nil => exact .pure hR _
  | cons r rest ih =>
    exact .bind hR (Leads.holdsOn hR hf r) fun _ => .bind hR ih fun _ => .pure hR _

section
variable (hf : Leads settings Session.Later f)
include hf

theorem exec_searchNodes {below : Ref → Eval (List Ref)} {ps : List (Slot × Ref)}
    (hbelow : ∀ p ∈ ps, ∀ υ, σ.Later υ → (below p.2).exec settings υ =
      (held f ((σ.store.descendants p.2).map Prod.snd)).exec settings υ) (hτ : σ.Later τ) :
    (searchNodes f below (ps.map Prod.snd)).exec settings τ =
      (held f ((ps.flatMap σ.store.listing).map Prod.snd)).exec settings τ := by
  induction ps generalizing τ with
  | nil => rfl
  | cons p ps ih =>
    have hlisting : (σ.store.listing p).map Prod.snd =
        p.2 :: (σ.store.descendants p.2).map Prod.snd := by
      rw [Store.listing, List.map_cons, List.map_map]
      rfl
    have hlenient := Session.Later.tolerant.lenient
    rw [List.map_cons, searchNodes, List.flatMap_cons, List.map_append, hlisting,
      List.cons_append, held, held_append, Eval.exec_bind, Eval.exec_bind]
    have hυ := hτ.trans (Leads.holdsOn hlenient hf p.2 τ)
    rcases hrun : (holdsOn f p.2).exec settings τ with ⟨x | found, υ⟩ <;> rw [hrun] at hυ
    dsimp only
    have hψ := hυ.trans (leads_held hlenient hf ((σ.store.descendants p.2).map Prod.snd) υ)
    rw [Eval.exec_bind, hbelow p List.mem_cons_self υ hυ, Eval.exec_bind, Eval.exec_bind]
    rcases hrun : (held f ((σ.store.descendants p.2).map Prod.snd)).exec settings υ with
      ⟨x | inside, ψ⟩ <;> rw [hrun] at hψ
    dsimp only
    rw [Eval.exec_bind, ih (fun q hq => hbelow q (List.mem_cons_of_mem _ hq)) hψ, Eval.exec_bind]
    rcases (held f ((ps.flatMap σ.store.listing).map Prod.snd)).exec settings ψ
      with ⟨x | others, φ⟩
    · rfl
    · simp

theorem exec_searchBelow {w : Concern} (hσ : σ.Sound w) (hτ : σ.Later τ) {levels : Nat}
    (hr : σ.store.Known r) (hdeep : ¬ σ.store.Deep (levels + 1) r) :
    (searchBelow f levels r).exec settings τ =
      (held f ((σ.store.descendants r).map Prod.snd)).exec settings τ := by
  induction levels generalizing τ r with
  | zero =>
    have hchildren : (σ.store.data r).children = [] :=
      List.eq_nil_iff_forall_not_mem.2 fun c hc => hdeep ⟨c, hc, trivial⟩
    have hplaced : (σ.store.data r).placed = [] := by
      rw [← Data.map_snd_placed] at hchildren
      exact List.map_eq_nil_iff.1 hchildren
    have hdata : τ.store.data r = σ.store.data r := (hτ.node r hr).data
    unfold searchBelow
    rw [Eval.exec_bind, Eval.exec_read, (hσ.store.grounded r).descendants_eq, hplaced]
    dsimp only
    rw [hdata, hchildren]
    rfl
  | succ levels ih =>
    have hdata : τ.store.data r = σ.store.data r := (hτ.node r hr).data
    unfold searchBelow
    rw [Eval.exec_bind, Eval.exec_read, (hσ.store.grounded r).descendants_eq]
    dsimp only
    rw [hdata, ← Data.map_snd_placed]
    refine exec_searchNodes hf (fun p hp υ hυ => ?_) hτ
    have hpart : σ.store.Part p.2 r := Data.mem_children_iff.2 ⟨p.1, Data.mem_placed_iff.1 hp⟩
    exact ih hυ (hσ.store.part_known hpart) fun hn => hdeep ⟨p.2, hpart, hn⟩

end

end Step

-- ---------------------------------------------------------------------------
-- What the loop gives
-- ---------------------------------------------------------------------------

theorem exec_held_ok (h : ∀ j ∈ σ.judged settings p nodes, ∃ b, j.2 = .ok b) :
    (Step.held p.step nodes).exec settings σ =
      (.ok (((σ.judged settings p nodes).filter fun j => j.2.toOption == some true).map Prod.fst),
        σ.visit settings p nodes) := by
  induction nodes generalizing σ with
  | nil => rfl
  | cons r rest ih =>
    rw [Session.judged, List.forall_mem_cons] at h
    obtain ⟨⟨b, hb⟩, hrest⟩ := h
    have hb : σ.verdict settings p r = .ok b := hb
    rw [Step.held, Eval.exec_bind, exec_holdsOn, hb]
    dsimp only
    rw [Eval.exec_bind, ih hrest, Session.judged, hb]
    cases b <;> rfl

theorem exec_held_error {before after : List (Ref × Except EvalError Bool)} {x : EvalError}
    (hjudged : σ.judged settings p nodes = before ++ (c, .error x) :: after)
    (h : ∀ j ∈ before, ∃ b, j.2 = .ok b) :
    (Step.held p.step nodes).exec settings σ =
      (.error x, σ.visit settings p (before.map Prod.fst ++ [c])) := by
  induction nodes generalizing σ before with
  | nil => exact absurd hjudged (by simp [Session.judged])
  | cons r rest ih =>
    rw [Session.judged] at hjudged
    rw [Step.held, Eval.exec_bind, exec_holdsOn]
    cases before with
    | nil =>
      obtain ⟨hfirst, -⟩ := List.cons.inj hjudged
      obtain ⟨rfl, hx⟩ := Prod.mk.inj hfirst
      rw [hx]
      rfl
    | cons j before =>
      rw [List.forall_mem_cons] at h
      obtain ⟨⟨b, hb⟩, hrest⟩ := h
      obtain ⟨rfl, htail⟩ := List.cons.inj hjudged
      have hb : σ.verdict settings p r = .ok b := hb
      rw [hb]
      dsimp only
      rw [Eval.exec_bind, ih htail hrest]
      rfl

theorem evaluate_search {w : Concern} (hp : Step.Leads settings Session.Later p.step)
    (hσ : σ.Sound w) (hsub : σ.store.Single subject)
    (hdeep : ¬ σ.store.Deep (settings.searchLimit + 1) subject) :
    evaluate settings (.search p) subject σ =
      match (Step.held p.step ((σ.store.descendants subject).map Prod.snd)).exec settings σ with
      | (.ok found, τ) => τ.newSlice found
      | (.error x, τ) => (.error (.within (Expr.search p).kindName x), τ) := by
  rw [evaluate_of_not_branch _ hsub.not_branch, Expr.denote, Step.search, Eval.exec_bind,
    Eval.exec_settings]
  dsimp only
  rw [Eval.exec_bind, ← Expr.step, Step.exec_searchBelow hp hσ (.refl σ) hsub.known hdeep]
  rcases (Step.held p.step ((σ.store.descendants subject).map Prod.snd)).exec settings σ
    with ⟨x | found, τ⟩ <;>
    rfl

-- ---------------------------------------------------------------------------
-- Steady predicates
-- ---------------------------------------------------------------------------

theorem Session.verdict_congr (hs : settings.Respectful) {m : Pairing} {a b : Ref} (hab : m a b)
    (h : σ.Alike m τ) : σ.verdict settings p a = τ.verdict settings p b := by
  obtain ⟨l, -, halike, hresult⟩ := evaluate_alike hs p hab h
  unfold Session.verdict
  generalize evaluate settings p a σ = x, evaluate settings p b τ = y at halike hresult
  obtain ⟨_ | q, υ⟩ := x <;> obtain ⟨_ | q', ψ⟩ := y <;> cases hresult
  · rfl
  · rename_i hq
    dsimp only
    rw [halike.store.bool?_eq hq]

theorem Session.alike_of_quiet {w : Concern} (hσ : σ.Sound w) (hsub : σ.store.Known subject)
    (hspread : ∀ r, σ.Live subject r → σ.store.isSpread r = false) (hlater : σ.Later τ)
    (hquiet : σ.store.Quiet τ.store) : σ.Alike (fun a b => a = b ∧ σ.Live subject a) τ where
  store := by
    have hknown {r : Ref} (hr : σ.Live subject r) : σ.store.Known r := hr.known hσ hsub
    refine .of_kept (fun hr => ⟨hknown hr, hquiet.known (hknown hr)⟩)
      (fun _ => hσ.store.grounded _)
      (fun hr hc => hr.part hc) (fun hr => (hlater.node _ (hknown hr)).data) fun hr => ?_
    rw [hquiet.marks (hknown hr) (hspread _ hr)]
    exact ⟨rfl, rfl, rfl⟩
  bindings := by
    rw [hlater.bindings]
    exact List.forall₂_same.2 fun e he => ⟨rfl, rfl, .of_value (List.mem_map_of_mem he)⟩

/-- Where nothing is a spread that a predicate can come to, it says of each node what it says at the
beginning. -/
theorem judged_eq_map (files : FileSystem) (environment : Environment) (limit : Nat) {w : Concern}
    (hp : p.assignFree = true) (hi : p.ignoreFree = true) (hσ : σ.Sound w)
    (hsub : σ.store.Known subject)
    (hspread : ∀ r, σ.Live subject r → σ.store.isSpread r = false)
    (hnodes : ∀ c ∈ nodes, σ.Live subject c) :
    let settings : Settings := ⟨Registry.builtins files, environment, limit⟩
    σ.judged settings p nodes = nodes.map fun c => (c, σ.verdict settings p c) := by
  intro settings
  have hjudged {τ : Session} (hlater : σ.Later τ) (hquiet : σ.store.Quiet τ.store) :
      τ.judged settings p nodes = nodes.map fun c => (c, σ.verdict settings p c) := by
    induction nodes generalizing τ with
    | nil => rfl
    | cons c rest ih =>
      have halike := Session.alike_of_quiet hσ hsub hspread hlater hquiet
      have hverdict : σ.verdict settings p c = τ.verdict settings p c :=
        Session.verdict_congr (Settings.respectful_builtins files environment limit)
          ⟨rfl, hnodes c List.mem_cons_self⟩ halike
      rw [Session.judged, List.map_cons, hverdict]
      refine congrArg _ (ih (fun d hd => hnodes d (List.mem_cons_of_mem _ hd)) ?_ ?_)
      · exact hlater.trans (evaluate_later files environment limit hp c τ)
      · exact hquiet.trans (evaluate_quiet files environment limit hi c τ)
  exact hjudged (.refl σ) (.refl _)

/-- In every session that a program meets, a predicate that writes nothing is evaluated on all that
is below the subject, in pre-order and once on each path. The result is a new slice of the nodes on
which it is true, in that order; those where it misses something are left out, but what is below
them is not. The first node on which it fails, or is no boolean, makes the search fail with that
error. What the predicate says of a node does not depend on when it is asked, unless it can come to
a spread or marks nodes itself. A descent takes its nodes from the same list. How deep a search may
go is for the settings to say; no subject without cycles is deeper than there are nodes. -/
theorem search_visits_descendants (files : FileSystem) (environment : Environment) (limit : Nat)
    (hσ : σ.Met ⟨Registry.builtins files, environment, limit⟩) (hsub : σ.store.Known subject)
    (hsingle : σ.store.isBranch subject = false) (hdeep : ¬ σ.store.Deep (limit + 1) subject)
    (hp : p.assignFree = true) :
    let settings : Settings := ⟨Registry.builtins files, environment, limit⟩
    let entries := σ.store.descendants subject
    let nodes := entries.map Prod.snd
    let judged := σ.judged settings p nodes
    ((∀ path c, (path, c) ∈ entries ↔
        path ≠ [] ∧ σ.store.follow? subject path = some c) ∧
      (entries.Pairwise fun a b => σ.store.Before subject a.1 b.1) ∧
      (σ.store.TreeShaped subject → nodes.Nodup)) ∧
    ((∀ j ∈ judged, ∃ b, j.2 = .ok b) → evaluate settings (.search p) subject σ =
      (σ.visit settings p nodes).newSlice
        ((judged.filter fun j => j.2.toOption == some true).map Prod.fst)) ∧
    (∀ before c x after, judged = before ++ (c, .error x) :: after →
      (∀ j ∈ before, ∃ b, j.2 = .ok b) →
      evaluate settings (.search p) subject σ =
        (.error (.within (Expr.search p).kindName x),
          σ.visit settings p (before.map Prod.fst ++ [c]))) ∧
    (p.ignoreFree = true → (∀ r, σ.Live subject r → σ.store.isSpread r = false) →
      judged = nodes.map fun c => (c, σ.verdict settings p c)) ∧
    ∀ target, evaluate settings (.descend target) subject σ =
      σ.newSlice ((entries.filter (σ.store.takes target)).map Prod.snd) := by
  intro settings entries nodes judged
  have hsound := hσ.sound (Settings.keeping_builtins .soundness files environment limit)
  have hgrounded := hsound.store.grounded subject
  have hleads : Step.Leads settings Session.Later p.step := fun r τ =>
    evaluate_later files environment limit hp r τ
  have hsearch := evaluate_search hleads hsound ⟨hsub, hsingle⟩ hdeep
  refine ⟨⟨fun _ _ => hgrounded.mem_descendants_iff, hgrounded.descendants_sorted,
    hgrounded.nodup_descendants⟩, fun h => ?_,
    fun before c x after hjudged h => ?_, fun hi hspread => ?_, fun target => ?_⟩
  · rw [hsearch, exec_held_ok h]
  · rw [hsearch, exec_held_error hjudged h]
  · refine judged_eq_map files environment limit hp hi hsound hsub hspread fun c hc => ?_
    obtain ⟨⟨path, c⟩, hmem, rfl⟩ := List.mem_map.1 hc
    exact ⟨subject, List.mem_cons_self,
      Store.below_iff_follow?.2 ⟨path, (hgrounded.mem_descendants_iff.1 hmem).2⟩⟩
  · refine evaluate_ok _ hsingle ?_
    rw [Expr.denote, Step.descend, Eval.exec_bind, Eval.exec_read, hgrounded.found_eq_filter]
    rfl

/-- Searches for where a property is true: among maps and slices, where it may also be missing, and
where it is no boolean on a node that has one before it. -/
theorem search_visits_descendants_property :
    let settings : Settings := ⟨Registry.builtins FileSystem.bare, fun _ => none, 10⟩
    let p : Expr := .property "b"
    let first : String × Content := ("a", .map [("b", .bool true)])
    let start := Session.start (.map [first, ("c", .slice [.map [("b", .bool false)], .map []])]) []
    let other := Session.start (.map [first, ("c", .map [("b", .int 1)])]) []
    let nodes := (start.2.store.descendants start.1).map Prod.snd
    let judged := other.2.judged settings p ((other.2.store.descendants other.1).map Prod.snd)
    (nodes = [⟨1⟩, ⟨0⟩, ⟨5⟩, ⟨3⟩, ⟨2⟩, ⟨4⟩] ∧ nodes.Nodup ∧
      start.2.judged settings p nodes = nodes.map (fun c => (c, start.2.verdict settings p c)) ∧
      evaluate settings (.search p) start.1 start.2 =
        (start.2.visit settings p nodes).newSlice [⟨1⟩] ∧
      evaluate settings (.descend (.key "b")) start.1 start.2 =
        start.2.newSlice [⟨0⟩, ⟨2⟩]) ∧
    ∃ before c x after, judged = before ++ (c, .error x) :: after ∧ before ≠ [] ∧
      evaluate settings (.search p) other.1 other.2 =
        (.error (.within "search" x), other.2.visit settings p (before.map Prod.fst ++ [c])) := by
  intro settings p first start other nodes judged
  have hmet (c : Content) : (Session.start c []).2.Met settings := .reachable (.start settings c [])
  have hplain (c : Content) := Session.Plain.start c []
  have hknown (c : Content) : (Session.start c []).2.store.Known (Session.start c []).1 :=
    (hplain c).forest.root List.mem_cons_self
  have hdeep {c : Content} (hsize : (Session.start c []).2.store.size ≤ 10) :
      ¬ (Session.start c []).2.store.Deep (10 + 1) (Session.start c []).1 := fun hn =>
    absurd (((hplain c).forest.grounded (hknown c)).le_size hn) (by omega)
  obtain ⟨⟨-, -, hnodup⟩, hfound, -, hsteady, hdescend⟩ :=
    search_visits_descendants _ _ _ (hmet _)
    (hknown _) ((hplain _).unmarked.isBranch start.1) (hdeep (by decide +kernel)) (p := p) rfl
  obtain ⟨-, -, hfails, -⟩ := search_visits_descendants _ _ _ (hmet _) (hknown _)
    ((hplain _).unmarked.isBranch other.1) (hdeep (by decide +kernel)) (p := p) rfl
  refine ⟨⟨by decide +kernel, ?_, ?_, ?_, ?_⟩, ?_⟩
  · have hroot : start.1 ∈ [start.1] ++ start.2.bindings.values := List.mem_cons_self
    exact hnodup fun hpath hpath' => ((hplain _).forest.follow_inj hroot hroot hpath hpath').2
  · exact hsteady rfl fun r _ => (hplain _).unmarked.isSpread r
  · have hall : (start.2.judged settings p nodes).all (fun j => j.2.toOption.isSome) = true := by
      decide +kernel
    rw [hfound fun j hj => ?_]
    · exact congrArg _ (by decide +kernel)
    · have hsome := List.all_eq_true.1 hall j hj
      obtain ⟨c, x | b⟩ := j
      · cases hsome
      · exact ⟨b, rfl⟩
  · rw [hdescend]
    exact congrArg _ (by decide +kernel)
  · obtain ⟨j, hj⟩ := Option.isSome_iff_exists.1
      (show (judged.find? fun j => j.2.toOption.isNone).isSome by decide +kernel)
    obtain ⟨hnone, before, after, heq, hbefore⟩ := List.find?_eq_some_iff_append.1 hj
    obtain ⟨c, x | b⟩ := j
    · refine ⟨before, c, x, after, heq, ?_, hfails before c x after heq fun j hj => ?_⟩
      · rintro rfl
        have hhead : (judged.head?.bind fun j => j.2.toOption).isSome := by decide +kernel
        rw [heq] at hhead
        cases hhead
      · have hsome := hbefore j hj
        obtain ⟨c, x | b⟩ := j
        · cases hsome
        · exact ⟨b, rfl⟩
    · cases hnone

end DocSelect
