import DocSelect.Json.Writer
import DocSelect.Proofs.Alike.Trim
import DocSelect.Proofs.Forest
import DocSelect.Proofs.Frame
import DocSelect.Proofs.Reachable

/-!
# Running a selector again

Without assignments, all that running a selector leaves in a document are marks: some nodes of it
may be ignored from then on. If none is, the document is as it was read, and every later run of the
selector, with an evaluator of its own, comes to the same outcome. The mark of an ignored node
stays, though, and the next run drops the node from its results.
-/
namespace DocSelect

variable {settings : Settings} {selector : String} {document r : Ref} {s t : Store} {m : Pairing}

/-- What is seen of running a selector: the content of the result and whether it is a branch, or the
error. -/
def outcome : Except SelectError Ref × Session → Except SelectError (Content × Bool)
  | (result, σ) => result.map fun r => (σ.store.content r, σ.store.isBranch r)

/-- The store after running a selector some times on a document, each time with an evaluator of its
own. -/
def Store.rerun (settings : Settings) (selector : String) (document : Ref) (s : Store) :
    Nat → Store
  | 0 => s
  | n + 1 =>
    (execute settings selector document ⟨s.rerun settings selector document n,
      Dict.empty⟩).2.store

theorem execute_alike (hg : settings.Respectful) (selector : String) {a b : Ref} (hab : m a b)
    {σ τ : Session} (h : σ.Alike m τ) :
    ∃ l, m ≤ l ∧ (execute settings selector a σ).2.Alike l
      (execute settings selector b τ).2 ∧
      Except.Alike l (execute settings selector a σ).1 (execute settings selector b τ).1 := by
  unfold execute
  split
  · exact ⟨m, le_refl m, h, .ok hab⟩
  · split
    · exact ⟨m, le_refl m, h, .error _⟩
    · obtain ⟨l, hl, hsession, hresult⟩ := evaluate_alike hg _ hab h
      exact ⟨l, hl, hsession, hresult.mapError _⟩

theorem outcome_eq_of_alike {x y : Except SelectError Ref × Session} (h : x.2.Alike m y.2)
    (hresult : Except.Alike m x.1 y.1) : outcome x = outcome y := by
  obtain ⟨p, σ⟩ := x
  obtain ⟨q, τ⟩ := y
  cases hresult with
  | ok hab => exact congrArg Except.ok (Prod.ext (h.store.content_eq hab) (h.store.isBranch_eq hab))
  | error => rfl

theorem execute_later (files : FileSystem) (environment : Environment) (limit : Nat)
    (hassign : ∀ e, parse selector = .ok e → e.assignFree = true) (document : Ref)
    (σ : Session) :
    σ.Later (execute ⟨Registry.builtins files, environment, limit⟩ selector
      document σ).2 := by
  unfold execute
  split
  · exact .refl σ
  · split
    · exact .refl σ
    · rename_i e hparse
      exact evaluate_later files environment limit (hassign e hparse) document σ

theorem execute_shown (files : FileSystem) (environment : Environment) (limit : Nat)
    (hignore : ∀ e, parse selector = .ok e → e.ignoreFree = true) (document : Ref)
    {σ : Session} (hσ : σ.store.Bears Marks.Shown) :
    (execute ⟨Registry.builtins files, environment, limit⟩ selector document σ).2.store.Bears
      Marks.Shown := by
  unfold execute
  split
  · exact hσ
  · split
    · exact hσ
    · rename_i e hparse
      exact evaluate_leads_of_permits permits_ignoreFree (hignore e hparse) document σ hσ

-- ---------------------------------------------------------------------------
-- Documents that stay as they are
-- ---------------------------------------------------------------------------

namespace Store

def Below (s : Store) (document r : Ref) : Prop := Relation.ReflTransGen s.Part r document

structure Pristine (s : Store) (document : Ref) : Prop where
  sound : s.Sound .soundness
  known : s.Known document
  shown {r : Ref} : s.Below document r → s.isIgnored r = false
  whole {r : Ref} : s.Below document r → s.isSpread r = false

structure Keeps (document : Ref) (s t : Store) : Prop where
  known {r : Ref} : s.Below document r → t.Known r
  data {r : Ref} : s.Below document r → t.data r = s.data r
  marks {r : Ref} : s.Below document r → (s.marks r).Alike (t.marks r)

theorem Pristine.known_below (h : s.Pristine document) (hr : s.Below document r) : s.Known r := by
  rcases hr.cases_head with rfl | ⟨_, hc, -⟩
  · exact h.known
  · exact h.sound.part_known hc

theorem Pristine.keeps (h : s.Pristine document) : s.Keeps document s :=
  ⟨h.known_below, fun _ => rfl, fun _ => ⟨rfl, rfl, rfl⟩⟩

theorem Keeps.alike (h : s.Keeps document t) (hs : s.Pristine document) :
    s.Alike (fun a b => a = b ∧ s.Below document a) t :=
  .of_kept (fun hr => ⟨hs.known_below hr, h.known hr⟩) (fun _ => hs.sound.grounded _)
    (fun hr hc => .head hc hr) h.data h.marks

end Store

section
variable (files : FileSystem) (environment : Environment) (limit : Nat)

/-- Where the document is the same, the selector has the same outcome. If it leaves nothing in the
document ignored, the document is the same after it. -/
theorem Store.Keeps.after (h : s.Keeps document t) (hs : s.Pristine document)
    (hassign : ∀ e, parse selector = .ok e → e.assignFree = true)
    (hkept : ∀ r, s.Below document r →
      (execute ⟨Registry.builtins files, environment, limit⟩
      selector document ⟨s, Dict.empty⟩).2.store.isIgnored r = false) :
    let settings : Settings := ⟨Registry.builtins files, environment, limit⟩
    let run (t : Store) := execute settings selector document ⟨t, Dict.empty⟩
    outcome (run t) = outcome (run s) ∧ s.Keeps document (run t).2.store := by
  intro settings run
  have halike : Session.Alike _ ⟨s, Dict.empty⟩ ⟨t, Dict.empty⟩ := ⟨h.alike hs, .empty⟩
  obtain ⟨l, hl, hafter, hresult⟩ :=
    execute_alike (Settings.respectful_builtins files environment limit) selector
      ⟨rfl, .refl⟩ halike
  have hlater : Session.Later ⟨t, Dict.empty⟩ (run t).2 :=
    execute_later files environment limit hassign document _
  refine ⟨(outcome_eq_of_alike hafter hresult).symm,
    fun hr => (hafter.store.lt (hl _ _ ⟨rfl, hr⟩)).2, fun {r} hr => ?_, fun {r} hr => ?_⟩
  · exact (hlater.node r (h.known hr)).data.trans (h.data hr)
  · have hmarks := h.marks hr
    have hnode := hlater.node r (h.known hr)
    refine ⟨hmarks.branch.trans hnode.branch.symm, ?_, ?_⟩
    · -- a spread mark is only ever taken away
      have hspread : (t.marks r).spread = false := hmarks.spread.symm.trans (hs.whole hr)
      have hafter : ((run t).2.store.marks r).spread = false :=
        Bool.eq_false_iff.2 fun hmark =>
          Bool.false_ne_true (hspread.symm.trans (hnode.spread hmark))
      exact (hs.whole hr).trans hafter.symm
    · have hafter := (hafter.store.marks (hl _ _ ⟨rfl, hr⟩)).ignored
      exact (hs.shown hr).trans ((hkept r hr).symm.trans hafter)

theorem Store.Pristine.keeps_rerun (hs : s.Pristine document)
    (hassign : ∀ e, parse selector = .ok e → e.assignFree = true)
    (hkept : ∀ r, s.Below document r →
      (execute ⟨Registry.builtins files, environment, limit⟩
      selector document ⟨s, Dict.empty⟩).2.store.isIgnored r = false) (n : Nat) :
    s.Keeps document (s.rerun ⟨Registry.builtins files, environment, limit⟩ selector
      document n) := by
  induction n with
  | zero => exact hs.keeps
  | succ n ih => exact (ih.after files environment limit hs hassign hkept).2

/-- Running a selector without assignments on a document that has been read, again and again and
each time with an evaluator of its own, comes to the same outcome every time, if the first run
leaves nothing in the document ignored; and it does not if the selector has no call for that. -/
theorem execute_repeats (content : Content)
    (hassign : ∀ e, parse selector = .ok e → e.assignFree = true) :
    let settings : Settings := ⟨Registry.builtins files, environment, limit⟩
    let start := Session.start content []
    ((∀ e, parse selector = .ok e → e.ignoreFree = true) ∨
      ∀ r, start.2.store.Below start.1 r →
        (execute settings selector start.1 start.2).2.store.isIgnored r = false) →
    ∀ n, outcome (execute settings selector start.1
        ⟨start.2.store.rerun settings selector start.1 n, Dict.empty⟩) =
      outcome (execute settings selector start.1 start.2) := by
  intro settings start hkept n
  have hunmarked := (Session.Plain.start content []).unmarked
  have hsound := (Session.Reachable.start settings content []).sound
    (Settings.keeping_builtins .soundness files environment limit)
  have hpristine : start.2.store.Pristine start.1 :=
    { sound := hsound.store
      known := ((Store.empty.grown_build content).root_fresh (List.mem_singleton.2 rfl)).2
      shown := fun _ => congrArg Marks.ignored (hunmarked _)
      whole := fun _ => congrArg Marks.spread (hunmarked _) }
  have hshown : ∀ r, start.2.store.Below start.1 r →
      (execute settings selector start.1 start.2).2.store.isIgnored r = false := by
    rcases hkept with hignore | hkept
    · have hbears : start.2.store.Bears Marks.Shown := fun r => by rw [hunmarked]; rfl
      exact fun r _ => execute_shown files environment limit hignore start.1 hbears r
    · exact hkept
  have hkeeps := hpristine.keeps_rerun files environment limit hassign hshown n
  exact (hkeeps.after files environment limit hpristine hassign hshown).1

end

/-- The sum of each element of a document and one, twice. -/
theorem execute_repeats_broadcast :
    let settings : Settings := ⟨Registry.builtins FileSystem.bare, fun _ => none, 10⟩
    let start := Session.start (.slice [.int 1, .int 2]) []
    let selector := "branch().$this + 1"
    (parse selector).toOption.map (fun e => (e.assignFree, e.ignoreFree)) = some (true, true) ∧
      outcome (execute settings selector start.1
        ⟨start.2.store.rerun settings selector start.1 1, Dict.empty⟩) =
        outcome (execute settings selector start.1 start.2) := by
  intro settings start selector
  have hparse : (parse selector).toOption.map (fun e => (e.assignFree, e.ignoreFree)) =
      some (true, true) := by decide +kernel
  have hfree (e : Expr) (he : parse selector = .ok e) :
      e.assignFree = true ∧ e.ignoreFree = true := by
    rw [he] at hparse
    exact Prod.mk.inj (Option.some.inj hparse)
  exact ⟨hparse, execute_repeats _ _ _ _ (fun e he => (hfree e he).1)
    (.inl fun e he => (hfree e he).2) 1⟩

/-- The document is among its own results once it is marked, and is dropped from them by the next
run. -/
theorem ignored_dropped_again :
    let settings : Settings := ⟨Registry.builtins FileSystem.bare, fun _ => none, 10⟩
    let start := Session.start (.int 1) []
    let selector := "[branch($this).$this, ignore()]"
    let text (n : Nat) := (outcome (execute settings selector start.1
      ⟨start.2.store.rerun settings selector start.1 n, Dict.empty⟩)).toOption.map fun o =>
        Json.compact o.1
    (parse selector).toOption.map Expr.assignFree = some true ∧
      text 0 = some "[1,1]".toList ∧ text 1 = some "[1]".toList := by
  decide +kernel

end DocSelect
