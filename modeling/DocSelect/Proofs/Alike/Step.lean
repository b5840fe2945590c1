import DocSelect.Eval.Evaluate
import DocSelect.Proofs.Alike.Run

/-!
# Steps respect pairings

Each step does the same on paired subjects if the steps that it is made of do.
-/
namespace DocSelect

theorem forall₂_zip_zip {α β γ δ : Type} {R : α → β → Prop} {S : γ → δ → Prop}
    {as : List α} {bs : List β} {cs : List γ} {ds : List δ} (h : List.Forall₂ R as bs)
    (k : List.Forall₂ S cs ds) :
    List.Forall₂ (fun p q => R p.1 q.1 ∧ S p.2 q.2) (as.zip cs) (bs.zip ds) := by
  induction h generalizing cs ds with
  | nil => exact .nil
  | cons hab _ ih =>
    cases k with
    | nil => exact .nil
    | cons hcd k => exact .cons ⟨hab, hcd⟩ (ih k)

theorem sortStable_alike {α β : Type} {R : α → β → Prop} {p : α → α → Bool}
    {q : β → β → Bool} (hp : ∀ a b a' b', R a b → R a' b' → p a a' = q b b')
    {xs : List α} {ys : List β} (h : List.Forall₂ R xs ys) :
    List.Forall₂ R (sortStable p xs) (sortStable q ys) := by
  have hinsert {a : α} {b : β} (hab : R a b)
      {as : List α} {bs : List β} (has : List.Forall₂ R as bs) :
      List.Forall₂ R (insertSorted p a as) (insertSorted q b bs) := by
    induction has with
    | nil => exact .cons hab .nil
    | cons hcd has ih =>
      simp only [insertSorted, hp _ _ _ _ hab hcd]
      split
      · exact .cons hcd ih
      · exact .cons hab (.cons hcd has)
  have hfold (as : List α) (bs : List β) (has : List.Forall₂ R as bs) :
      List.Forall₂ R (xs.foldl (fun sorted x => insertSorted p x sorted) as)
        (ys.foldl (fun sorted y => insertSorted q y sorted) bs) := by
    induction h generalizing as bs with
    | nil => exact has
    | cons hab _ ih => exact ih _ _ (hinsert hab has)
  exact List.rel_reverse (hfold [] [] .nil)

end DocSelect

namespace DocSelect.Step.Respectful

open Eval.Alike (pure throw read noteSort ask bind bind_eq new newBranch change)

variable {settings : Settings} {m : Pairing} {xs ys : List Ref} {a b a' b' : Ref}

-- ---------------------------------------------------------------------------
-- Every subject
-- ---------------------------------------------------------------------------

theorem collect {f : Step} (hf : Respectful settings f) (h : List.Forall₂ m xs ys) :
    Eval.Alike settings m (fun l => List.Forall₂ l) (collect f xs) (collect f ys) := by
  induction xs generalizing m ys with
  | nil =>
    cases h
    exact pure fun _ _ => .nil
  | cons x xs ih =>
    cases h with
    | cons hx hxs =>
      refine (hf m _ _ hx).bind fun l hl r r' hr => ?_
      refine (ask fun l' hl' _ _ hs => hs.flatten (hl' _ _ hr)).bind fun l' hl' cs cs' hcs => ?_
      refine (ih (hxs.imp fun _ _ => (hl.trans hl') _ _)).bind fun l'' hl'' ds ds' hds => ?_
      exact pure fun k hk => List.rel_append (hcs.imp fun _ _ => (hl''.trans hk) _ _)
        (hds.imp fun _ _ => hk _ _)

theorem collectKept {f : Step} (hf : Respectful settings f) (h : List.Forall₂ m xs ys) :
    Eval.Alike settings m (fun l => List.Forall₂ l) (collectKept f xs) (collectKept f ys) := by
  induction xs generalizing m ys with
  | nil =>
    cases h
    exact pure fun _ _ => .nil
  | cons x xs ih =>
    cases h with
    | cons hx hxs =>
      refine (hf m _ _ hx).bind fun l hl r r' hr => ?_
      refine (read fun l' hl' _ _ hs => hs.isIgnored_eq
        (hl' _ _ hr)).bind_eq fun l' hl' ignored => ?_
      cases ignored
      · refine (ask fun k hk _ _ hs => hs.flatten
          ((hl'.trans hk) _ _ hr)).bind fun k hk cs cs' hcs => ?_
        refine (ih (hxs.imp fun _ _ => (hl.trans (hl'.trans hk)) _ _)).bind
          fun k' hk' ds ds' hds => ?_
        exact pure fun q hq => List.rel_append (hcs.imp fun _ _ => (hk'.trans hq) _ _)
          (hds.imp fun _ _ => hq _ _)
      · exact ih (hxs.imp fun _ _ => (hl.trans hl') _ _)

theorem within {f : Step} (node : String) (hf : Respectful settings f) :
    Respectful settings (within node f) :=
  fun m a b hab => (hf m a b hab).tryCatch fun _ _ _ => throw _

theorem broadcast {f : Step} (hf : Respectful settings f) : Respectful settings (broadcast f) := by
  intro m a b hab
  refine (read fun l hl _ _ hs => hs.isBranch_eq (hl _ _ hab)).bind_eq fun l hl isBranch => ?_
  cases isBranch
  · exact hf l a b (hl _ _ hab)
  · refine (ask fun l' hl' _ _ hs => hs.items?
      ((hl.trans hl') _ _ hab)).bind fun l' hl' is js his => ?_
    exact (collectKept hf his).bind fun k hk cs ds hcs => newBranch hcs

theorem lift {f : Step} (e : Expr) (hf : Respectful settings f) : Respectful settings (e.lift f) :=
  broadcast (within _ hf)

theorem chain {steps : List Step} (hs : ∀ f ∈ steps, Respectful settings f) :
    Respectful settings (chain steps) := by
  induction steps with
  | nil => exact fun m a b hab => pure fun l hl => hl _ _ hab
  | cons f rest ih =>
    exact fun m a b hab => (hs f List.mem_cons_self m a b hab).bind fun l _ c d hcd =>
      ih (fun g hg => hs g (List.mem_cons_of_mem _ hg)) l c d hcd

/-- What is done for each element of a branch, or else something for a single operand. -/
theorem branched {f : Step} (hf : Respectful settings f) {x y : Eval Ref} (hab : m a b)
    (hxy : ∀ l, m ≤ l → Eval.Alike settings l (fun l => l) x y) :
    Eval.Alike settings m (fun l => l)
      (do if (← Eval.read (·.isBranch a)) then
            let items ← Eval.ask (·.items? a)
            Eval.newBranch (← Step.collect f items)
          else x)
      (do if (← Eval.read (·.isBranch b)) then
            let items ← Eval.ask (·.items? b)
            Eval.newBranch (← Step.collect f items)
          else y) := by
  refine (read fun l hl _ _ hs => hs.isBranch_eq (hl _ _ hab)).bind_eq fun l hl isBranch => ?_
  cases isBranch
  · exact hxy l hl
  · refine (ask fun k hk _ _ hs => hs.items? ((hl.trans hk) _ _ hab)).bind fun k _ is js his => ?_
    exact (collect hf his).bind fun _ _ _ _ hcs => newBranch hcs

theorem orMiss {f : Step} (hf : Respectful settings f) (hab : m a b) :
    Eval.Alike settings m (fun l => Option.Rel l)
      (tryCatch (some <$> f a) fun e => if e.isMiss then Pure.pure none else throw e)
      (tryCatch (some <$> f b) fun e => if e.isMiss then Pure.pure none else throw e) := by
  refine .tryCatch ?_ fun l hl e => ?_
  · exact (hf m a b hab).bind fun l _ c d hcd => pure fun l' hl' => .some (hl' _ _ hcd)
  · split
    · exact pure fun _ _ => .none
    · exact throw e

-- ---------------------------------------------------------------------------
-- Looking things up
-- ---------------------------------------------------------------------------

theorem property (name : String) : Respectful settings (property name) :=
  fun _ _ _ hab => ask fun _ hl _ _ hs => hs.key? (hl _ _ hab) name

theorem index {key : Step} (hk : Respectful settings key) : Respectful settings (index key) := by
  intro m a b hab
  refine (hk m a b hab).bind fun l hl k k' hk => ?_
  refine (read fun l' hl' _ _ hs => hs.data (hl' _ _ hk)).bind fun l' hl' d d' hd => ?_
  have hab' := (hl.trans hl') _ _ hab
  cases hd with
  | scalar x =>
    cases x with
    | string key => exact ask fun _ hl _ _ hs => hs.key? (hl _ _ hab') key
    | int i => exact ask fun _ hl _ _ hs => hs.item? (hl _ _ hab') i
    | _ => exact throw _
  | slice => exact throw _
  | map => exact throw _

theorem bound {f : Option Step} (hf : ∀ g ∈ f, Respectful settings g) (hab : m a b) :
    Eval.Alike settings m (fun _ => Eq) (bound f a) (bound f b) := by
  cases f with
  | none => exact pure fun _ _ => rfl
  | some g =>
    refine (hf g rfl m a b hab).bind fun l hl r r' hr => ?_
    exact (ask fun l' hl' _ _ hs => .of_eq (hs.int?_eq (hl' _ _ hr))).bind_eq fun _ _ _ =>
      pure fun _ _ => rfl

theorem range {start stop : Option Step} (hs : ∀ g ∈ start, Respectful settings g)
    (ht : ∀ g ∈ stop, Respectful settings g) : Respectful settings (range start stop) := by
  intro m a b hab
  refine (bound hs hab).bind_eq fun l hl i => ?_
  refine (bound ht (hl _ _ hab)).bind_eq fun l' hl' j => ?_
  have hab' := (hl.trans hl') _ _ hab
  exact (ask fun k hk _ _ hs => hs.range? (hk _ _ hab') i j).bind fun _ _ _ _ hd => new hd

theorem var (name : String) : Respectful settings (var name) := by
  intro m a b hab
  unfold Step.var
  split
  · exact pure fun l hl => hl _ _ hab
  · refine Eval.Alike.get.bind fun l hl σ τ hσ => ?_
    rcases Assoc.Alike.find? hσ.bindings name with ⟨ha, hb⟩ | ⟨r, r', ha, hb, hr⟩ <;>
      simp only [Dict.find?, ha, hb]
    · refine Eval.Alike.readSettings.bind fun l' _ c c' hc => ?_
      obtain ⟨rfl, rfl⟩ := hc
      split
      · exact new (.scalar _)
      · exact throw _
    · exact pure fun l hl => hl _ _ hr

theorem spread : Respectful settings spread := by
  intro m a b hab
  refine (read fun l hl _ _ hs => hs.data (hl _ _ hab)).bind fun l hl d d' hd => ?_
  have hnew {es fs : List Ref} (h : List.Forall₂ l es fs) :
      Eval.Alike settings l (fun l => l)
        (do let r ← Eval.new (.slice es); Eval.change (·.markSpread r); return r)
        (do let r ← Eval.new (.slice fs); Eval.change (·.markSpread r); return r) := by
    refine (new (.slice h)).bind fun k _ r r' hr => ?_
    refine (change fun k' hk' _ _ hs => ⟨k', le_refl _, hs.markSpread (hk' _ _ hr)⟩).bind ?_
    exact fun k' hk' _ _ _ => pure fun q hq => (hk'.trans hq) _ _ hr
  cases hd with
  | scalar x => exact throw _
  | slice h => exact hnew h
  | map h => exact hnew h.values

-- ---------------------------------------------------------------------------
-- Operators
-- ---------------------------------------------------------------------------

theorem operate (op : BinaryOp) (hab : m a b) (hab' : m a' b') :
    Eval.Alike settings m (fun l => l) (operate op a a') (operate op b b') := by
  refine (read fun l hl _ _ hs => hs.operate?_eq (hl _ _ hab) (hl _ _ hab') op).bind_eq
    fun l _ result => ?_
  cases result with
  | ok x => exact new (.scalar x)
  | error e => exact throw e

theorem matching (op : BinaryOp) (pattern : Option String) (hab : m a b) :
    Eval.Alike settings m (fun l => l) (matching op pattern a) (matching op pattern b) := by
  unfold Step.matching
  split
  · exact throw _
  · split
    · exact throw _
    · refine (ask fun l hl _ _ hs => .of_eq
        (hs.string?_eq (hl _ _ hab))).bind_eq fun _ _ text => ?_
      exact new (.scalar _)

theorem applyTo {right : Step} (op : BinaryOp) (pattern : Option String)
    (hr : Respectful settings right) (hab : m a b) (hab' : m a' b') :
    Eval.Alike settings m (fun l => l) (applyTo op pattern right a a')
      (applyTo op pattern right b b') := by
  unfold Step.applyTo
  split
  · exact matching _ _ hab
  · exact matching _ _ hab
  · exact (hr m _ _ hab').bind fun l hl c d hcd => operate _ (hl _ _ hab) hcd

theorem binary {left right : Step} (op : BinaryOp) (pattern : Option String)
    (hl : Respectful settings left) (hr : Respectful settings right) :
    Respectful settings (binary op pattern left right) := by
  have hitem : Respectful settings fun item => Step.applyTo op pattern right item item :=
    fun m x y hxy => applyTo op pattern hr hxy hxy
  intro m a b hab
  refine (hl m a b hab).bind fun l hl c d hcd => branched hitem hcd fun k hk => ?_
  exact applyTo op pattern hr (hk _ _ hcd) ((hl.trans hk) _ _ hab)

theorem coalesce {left right : Step} (hl : Respectful settings left)
    (hr : Respectful settings right) : Respectful settings (coalesce left right) := by
  intro m a b hab
  refine (orMiss hl hab).bind fun l hl c d hcd => ?_
  cases hcd with
  | none => exact hr l a b (hl _ _ hab)
  | @some c d hcd =>
    refine branched (fun m x y hxy => ?_) hcd fun k hk => ?_
    · refine (read fun q hq _ _ hs => hs.isNull_eq (hq _ _ hxy)).bind_eq fun q hq isNull => ?_
      cases isNull
      · exact pure fun q' hq' => (hq.trans hq') _ _ hxy
      · exact hr q x y (hq _ _ hxy)
    · refine (read fun q hq _ _ hs => hs.isNull_eq
        ((hk.trans hq) _ _ hcd)).bind_eq fun q hq isNull => ?_
      cases isNull
      · exact pure fun q' hq' => ((hk.trans hq).trans hq') _ _ hcd
      · exact hr q a b ((hl.trans (hk.trans hq)) _ _ hab)

theorem negation : Respectful settings negation := by
  intro m a b hab
  refine (ask fun l hl _ _ hs => .of_eq (hs.bool?_eq (hl _ _ hab))).bind_eq fun _ _ p => ?_
  exact new (.scalar _)

theorem not {f : Step} (hf : Respectful settings f) : Respectful settings (not f) :=
  fun m a b hab => (hf m a b hab).bind fun _ _ c d hcd =>
    branched negation hcd fun k hk => negation k c d (hk _ _ hcd)

-- ---------------------------------------------------------------------------
-- Assignment
-- ---------------------------------------------------------------------------

theorem writeInto (op : Option BinaryOp) (hab : m a b) (hab' : m a' b') :
    Eval.Alike settings m (fun l => l) (writeInto a op a') (writeInto b op b') := by
  have hwrite {l : Pairing} (hab : l a b) {c d : Ref} (hcd : l c d) :
      Eval.Alike settings l (fun l => l)
        (do Eval.change (·.set a c)
            if (← Eval.read (·.isScalar a)) then return c else return a)
        (do Eval.change (·.set b d)
            if (← Eval.read (·.isScalar b)) then return d else return b) := by
    refine (change fun k hk _ _ hs => hs.set (hk _ _ hab) (hk _ _ hcd)).bind fun k hk _ _ _ => ?_
    refine (read fun k' hk' _ _ hs => hs.isScalar_eq ((hk.trans hk') _ _ hab)).bind_eq
      fun k' hk' isScalar => ?_
    cases isScalar
    · exact pure fun q hq => ((hk.trans hk').trans hq) _ _ hab
    · exact pure fun q hq => ((hk.trans hk').trans hq) _ _ hcd
  cases op with
  | none => exact (pure fun l hl => hl _ _ hab').bind fun l hl c d hcd => hwrite (hl _ _ hab) hcd
  | some op => exact (operate op hab hab').bind fun l hl c d hcd => hwrite (hl _ _ hab) hcd

theorem bindUnbound (name : String) :
    Eval.Alike settings m (fun _ _ _ => True) (bindUnbound name) (bindUnbound name) := by
  refine Eval.Alike.get.bind fun l _ σ τ hσ => ?_
  rw [hσ.bindings.contains]
  split
  · exact pure fun _ _ => trivial
  · refine (new (.scalar .null)).bind fun l' _ r r' hr => ?_
    intro k hk υ ν hυ
    exact ⟨k, le_refl k, ⟨hυ.store, Assoc.Alike.insert hυ.bindings name (hk _ _ hr)⟩,
      .ok trivial⟩

theorem assign {target value : Step} (name : Option String) (op : Option BinaryOp)
    (ht : Respectful settings target) (hv : Respectful settings value) :
    Respectful settings (assign name target op value) := by
  have hwrite : Respectful settings (fun item => do Step.writeInto item op (← value item)) :=
    fun m a b hab => (hv m a b hab).bind fun l hl c d hcd => writeInto op (hl _ _ hab) hcd
  have hrest : Respectful settings (fun subject => do
      let a ← target subject
      if (← Eval.read (·.isBranch a)) then
        let items ← Eval.ask (·.items? a)
        let write (item : Ref) : Eval Ref := do Step.writeInto item op (← value item)
        Eval.newBranch (← Step.collect write items)
      else Step.writeInto a op (← value subject)) := by
    intro m a b hab
    refine (ht m a b hab).bind fun l hl c d hcd => branched hwrite hcd fun k hk => ?_
    refine (hv k a b ((hl.trans hk) _ _ hab)).bind fun k' hk' e f hef => ?_
    exact writeInto op ((hk.trans hk') _ _ hcd) hef
  intro m a b hab
  cases name with
  | none => exact hrest m a b hab
  | some name => exact (bindUnbound name).bind fun l hl _ _ _ => hrest l a b (hl _ _ hab)

-- ---------------------------------------------------------------------------
-- Building values
-- ---------------------------------------------------------------------------

theorem gather {take : Store → Ref → Except ValueError (List Ref)}
    (htake : ∀ (l : Pairing) (s t : Store) (a b : Ref), s.Alike l t → l a b →
      Except.Alike (List.Forall₂ l) (take s a) (take t b))
    {steps : List Step} (hs : ∀ f ∈ steps, Respectful settings f) (hab : m a b) :
    Eval.Alike settings m (fun l => List.Forall₂ l) (gather take steps a)
      (gather take steps b) := by
  induction steps generalizing m with
  | nil => exact pure fun _ _ => .nil
  | cons f rest ih =>
    refine (hs f List.mem_cons_self m a b hab).bind fun l hl c d hcd => ?_
    refine (ask fun l' hl' s t hs => htake l' s t c d hs
      (hl' _ _ hcd)).bind fun l' hl' cs cs' hcs => ?_
    have hrest := ih (fun g hg => hs g (List.mem_cons_of_mem _ hg)) ((hl.trans hl') _ _ hab)
    refine hrest.bind fun k hk ds ds' hds => ?_
    exact pure fun q hq => List.rel_append (hcs.imp fun _ _ => (hk.trans hq) _ _)
      (hds.imp fun _ _ => hq _ _)

theorem contributions {steps : List Step} (hs : ∀ f ∈ steps, Respectful settings f)
    (hab : m a b) :
    Eval.Alike settings m (fun l => List.Forall₂ l) (Step.gather Store.contribution steps a)
      (Step.gather Store.contribution steps b) :=
  gather (fun _ _ _ _ _ hs hab => hs.contribution hab) hs hab

theorem array {items : List Step} (hs : ∀ f ∈ items, Respectful settings f) :
    Respectful settings (array items) :=
  fun _ _ _ hab => (contributions hs hab).bind fun _ _ _ _ hcs => new (.slice hcs)

theorem branch {results : List Step} (hs : ∀ f ∈ results, Respectful settings f) :
    Respectful settings (branch results) := by
  intro m a b hab
  cases results with
  | cons f rest => exact (contributions hs hab).bind fun _ _ _ _ hcs => newBranch hcs
  | nil =>
    refine (read fun l hl _ _ hs => hs.data (hl _ _ hab)).bind fun l hl d d' hd => ?_
    cases hd with
    | scalar => exact throw _
    | map => exact throw _
    | slice h =>
      refine (ask fun l' hl' _ _ hs => ?_).bind fun _ _ css dss hcss =>
        newBranch (List.rel_flatten hcss)
      exact Except.Alike.mapM (h.imp fun _ _ => hl' _ _) fun _ _ _ hxy => hs.flatten hxy

theorem call {arguments : List Step} (name : String)
    (hg : ∀ f, settings.functions.find? name = some f → f.Respectful)
    (hs : ∀ f ∈ arguments, Respectful settings f) :
    Respectful settings (call name arguments) := by
  intro m a b hab
  refine Eval.Alike.readSettings.bind fun l hl c c' hc => ?_
  obtain ⟨rfl, rfl⟩ := hc
  split
  · exact throw _
  · rename_i f hf
    refine (gather (fun _ _ _ _ _ hs hab => hs.passed hab) hs (hl _ _ hab)).bind
      fun l' hl' cs ds hcs => ?_
    exact (Eval.Alike.act ((hg f hf).call ((hl.trans hl') _ _ hab) hcs)).tryCatch fun _ _ _ =>
      throw _

def ofEntry (settings : Settings) : Step.Entry → Prop
  | .spread source => ∀ f ∈ source, Respectful settings f
  | .pair key value => Respectful settings key ∧ Respectful settings value

theorem addTo {entry : Step.Entry} (he : ofEntry settings entry) {d d' : Dict Ref}
    (hd : d.Alike m d') (hab : m a b) :
    Eval.Alike settings m (fun l => Dict.Alike l) (entry.addTo d a) (entry.addTo d' b) := by
  cases entry with
  | spread source =>
    have hinsert {l : Pairing} (hd : d.Alike l d') {c c' : Ref} (hc : l c c') :
        Eval.Alike settings l (fun l => Dict.Alike l)
          (do let entries ← Eval.ask (·.entries? c); return d.insertAll entries.entries)
          (do let entries ← Eval.ask (·.entries? c'); return d'.insertAll entries.entries) := by
      refine (ask fun k hk _ _ hs => hs.entries? (hk _ _ hc)).bind fun k hk es es' hes => ?_
      exact pure fun q hq => Dict.Alike.insertAll (hd.mono (hk.trans hq)) (Dict.Alike.mono hes hq)
    cases source with
    | none => exact (pure fun l hl => hl _ _ hab).bind fun l hl c c' hc => hinsert (hd.mono hl) hc
    | some f => exact (he f rfl m a b hab).bind fun l hl c c' hc => hinsert (hd.mono hl) hc
  | pair key value =>
    refine (he.1 m a b hab).bind fun l hl k k' hk => ?_
    refine (read fun l' hl' _ _ hs => hs.data (hl' _ _ hk)).bind fun l' hl' x x' hx => ?_
    have hle := hl.trans hl'
    cases hx with
    | slice => exact throw _
    | map => exact throw _
    | scalar x =>
      cases x with
      | string key =>
        refine (he.2 l' a b (hle _ _ hab)).bind fun q hq c c' hc => ?_
        refine (change fun q' hq' _ _ hs =>
          ⟨q', le_refl _, hs.clearSpread (hq' _ _ hc)⟩).bind ?_
        intro q' hq' _ _ _
        have hdict := hd.mono (hle.trans (hq.trans hq'))
        exact pure fun k hk => Assoc.Alike.insert (hdict.mono hk) key ((hq'.trans hk) _ _ hc)
      | _ => exact throw _

theorem addEntries {entries : List Step.Entry} (he : ∀ e ∈ entries, ofEntry settings e)
    {d d' : Dict Ref} (hd : d.Alike m d') (hab : m a b) :
    Eval.Alike settings m (fun l => Dict.Alike l) (addEntries d entries a)
      (addEntries d' entries b) := by
  induction entries generalizing m d d' with
  | nil => exact pure fun _ hl => hd.mono hl
  | cons e rest ih =>
    exact (addTo (he e List.mem_cons_self) hd hab).bind fun l hl _ _ hd =>
      ih (fun e h => he e (List.mem_cons_of_mem _ h)) hd (hl _ _ hab)

theorem object {entries : List Step.Entry} (he : ∀ e ∈ entries, ofEntry settings e) :
    Respectful settings (object entries) :=
  fun _ _ _ hab => (addEntries he .empty hab).bind fun _ _ _ _ hd => new (.map hd)

theorem conditional {condition consequence : Step} {alternative : Option Step}
    (hc : Respectful settings condition) (hq : Respectful settings consequence)
    (ha : ∀ f ∈ alternative, Respectful settings f) :
    Respectful settings (conditional condition consequence alternative) := by
  intro m a b hab
  refine (hc m a b hab).bind fun l hl c d hcd => ?_
  refine (ask fun l' hl' _ _ hs =>
    .of_eq (hs.bool?_eq (hl' _ _ hcd))).bind_eq fun l' hl' holds => ?_
  have hab' := (hl.trans hl') _ _ hab
  cases holds
  · cases alternative with
    | none => exact new (.scalar .null)
    | some f => exact ha f rfl l' a b hab'
  · exact hq l' a b hab'

-- ---------------------------------------------------------------------------
-- Going over collections
-- ---------------------------------------------------------------------------

theorem elements (iteration : Iteration) (hab : m a b) :
    Eval.Alike settings m (fun l => List.Forall₂ l) (elements iteration a)
      (elements iteration b) := by
  refine (read fun l hl _ _ hs => hs.data (hl _ _ hab)).bind fun l hl d d' hd => ?_
  cases hd with
  | scalar => exact throw _
  | map => exact throw _
  | slice h => exact pure fun k hk => h.imp fun _ _ => hk _ _

theorem results {f : Step} (hf : Respectful settings f) (h : List.Forall₂ m xs ys) :
    Eval.Alike settings m (fun l => List.Forall₂ l) (results f xs) (results f ys) := by
  induction xs generalizing m ys with
  | nil =>
    cases h
    exact pure fun _ _ => .nil
  | cons x xs ih =>
    cases h with
    | cons hx hxs =>
      refine (hf m _ _ hx).bind fun l hl r r' hr => ?_
      refine (change fun k hk _ _ hs =>
        ⟨k, le_refl k, hs.clearSpread (hk _ _ hr)⟩).bind fun k hk _ _ _ => ?_
      refine (ih (hxs.imp fun _ _ => (hl.trans hk) _ _)).bind fun k' hk' cs ds hcs => ?_
      exact pure fun q hq => .cons ((hk.trans (hk'.trans hq)) _ _ hr) (hcs.imp fun _ _ => hq _ _)

theorem map {f : Step} (hf : Respectful settings f) : Respectful settings (map f) :=
  fun _ _ _ hab => (elements .map hab).bind fun _ _ _ _ his =>
    (results hf his).bind fun _ _ _ _ hcs => new (.slice hcs)

theorem runAll {f : Step} (hf : Respectful settings f) (h : List.Forall₂ m xs ys) :
    Eval.Alike settings m (fun _ _ _ => True) (runAll f xs) (runAll f ys) := by
  induction xs generalizing m ys with
  | nil =>
    cases h
    exact pure fun _ _ => trivial
  | cons x xs ih =>
    cases h with
    | cons hx hxs => exact (hf m _ _ hx).bind fun l hl _ _ _ => ih (hxs.imp fun _ _ => hl _ _)

theorem each {f : Step} (hf : Respectful settings f) : Respectful settings (each f) := by
  intro m a b hab
  refine (elements .each hab).bind fun l hl is js his => ?_
  exact (runAll hf his).bind fun k hk _ _ _ => pure fun q hq => (hl.trans (hk.trans hq)) _ _ hab

theorem kept {f : Step} (hf : Respectful settings f) (h : List.Forall₂ m xs ys) :
    Eval.Alike settings m (fun l => List.Forall₂ l) (kept f xs) (kept f ys) := by
  induction xs generalizing m ys with
  | nil =>
    cases h
    exact pure fun _ _ => .nil
  | cons x xs ih =>
    cases h with
    | cons hx hxs =>
      refine (hf m _ _ hx).bind fun l hl r r' hr => ?_
      refine (ask fun k hk _ _ hs => .of_eq (hs.bool?_eq (hk _ _ hr))).bind_eq fun k hk holds => ?_
      have hrest := ih (hxs.imp fun _ _ => (hl.trans hk) _ _)
      cases holds
      · exact hrest
      · refine hrest.bind fun k' hk' cs ds hcs => pure fun q hq => ?_
        exact .cons ((hl.trans (hk.trans (hk'.trans hq))) _ _ hx) (hcs.imp fun _ _ => hq _ _)

theorem filter {f : Step} (hf : Respectful settings f) : Respectful settings (filter f) :=
  fun _ _ _ hab => (elements .filter hab).bind fun _ _ _ _ his =>
    (kept hf his).bind fun _ _ _ _ hcs => new (.slice hcs)

theorem sortKeys {f : Step} (hf : Respectful settings f) (h : List.Forall₂ m xs ys) :
    Eval.Alike settings m (fun l => List.Forall₂ l) (sortKeys f xs) (sortKeys f ys) := by
  induction xs generalizing m ys with
  | nil =>
    cases h
    exact pure fun _ _ => .nil
  | cons x xs ih =>
    cases h with
    | cons hx hxs =>
      refine (hf m _ _ hx).bind fun l hl r r' hr => ?_
      refine (ih (hxs.imp fun _ _ => hl _ _)).bind fun k hk cs ds hcs => ?_
      exact pure fun q hq => .cons ((hk.trans hq) _ _ hr) (hcs.imp fun _ _ => hq _ _)

theorem sortBy {f : Step} (hf : Respectful settings f) (direction : SortDirection) :
    Respectful settings (sortBy f direction) := by
  intro m a b hab
  refine (elements .sort hab).bind fun l hl is js his => ?_
  refine (sortKeys hf his).bind fun l' hl' cs ds hcs => ?_
  -- the keys' trees can be compared where the pairing is one to one
  refine (read (R := fun k ts us => List.Forall₂ (Tree.Alike k) ts us ∧
    ∀ {a b a' b' : Ref}, k a b → k a' b' → (a = a' ↔ b = b')) fun k hk s t hs => ?_).bind ?_
  · refine ⟨List.rel_map (fun _ _ hcd => hs.tree hcd) (hcs.imp fun _ _ => hk _ _), ?_⟩
    exact fun hab hab' => hs.same_iff hab hab'
  · rintro k hk ts us ⟨htrees, hone⟩
    have hpairs := forall₂_zip_zip htrees (his.imp fun _ _ => (hl'.trans hk) _ _)
    refine (noteSort cs ds).bind fun _ hq _ _ _ => ?_
    refine new (.slice (List.rel_map (fun _ _ h => hq _ _ h.2)
      (sortStable_alike (fun _ _ _ _ h h' => ?_) hpairs)))
    exact h.1.precedes_eq hone h'.1 _

theorem holdsOn {f : Step} (hf : Respectful settings f) (hab : m a b) :
    Eval.Alike settings m (fun _ => Eq) (holdsOn f a) (holdsOn f b) := by
  refine (orMiss hf hab).bind fun l hl c d hcd => ?_
  cases hcd with
  | none => exact pure fun _ _ => rfl
  | some hcd => exact ask fun k hk _ _ hs => .of_eq (hs.bool?_eq (hk _ _ hcd))

theorem searchNodes {f : Step} {below : Ref → Eval (List Ref)} (hf : Respectful settings f)
    (hb : ∀ (m : Pairing) (a b : Ref), m a b →
      Eval.Alike settings m (fun l => List.Forall₂ l) (below a) (below b))
    (h : List.Forall₂ m xs ys) :
    Eval.Alike settings m (fun l => List.Forall₂ l) (searchNodes f below xs)
      (searchNodes f below ys) := by
  induction xs generalizing m ys with
  | nil =>
    cases h
    exact pure fun _ _ => .nil
  | cons x xs ih =>
    cases h with
    | cons hx hxs =>
      refine (holdsOn hf hx).bind_eq fun l hl found => ?_
      refine (hb l _ _ (hl _ _ hx)).bind fun k hk cs ds hcs => ?_
      have hle := hl.trans hk
      refine (ih (hxs.imp fun _ _ => hle _ _)).bind fun q hq es fs hes => pure fun q' hq' => ?_
      refine List.rel_append (List.rel_append ?_ (hcs.imp fun _ _ => (hq.trans hq') _ _))
        (hes.imp fun _ _ => hq' _ _)
      exact Tree.forall₂_ite found ((hle.trans (hq.trans hq')) _ _ hx)

theorem searchBelow {f : Step} (hf : Respectful settings f) (levels : Nat) (hab : m a b) :
    Eval.Alike settings m (fun l => List.Forall₂ l) (searchBelow f levels a)
      (searchBelow f levels b) := by
  induction levels generalizing m a b with
  | zero =>
    unfold Step.searchBelow
    refine (read fun l hl _ _ hs => hs.data (hl _ _ hab)).bind fun l hl d d' hd => ?_
    have hchildren := hd.children
    generalize d.children = cs, d'.children = ds at hchildren ⊢
    cases hchildren with
    | nil => exact pure fun _ _ => .nil
    | cons =>
      refine Eval.Alike.readSettings.bind fun _ _ c c' hc => ?_
      obtain ⟨rfl, rfl⟩ := hc
      exact throw _
  | succ levels ih =>
    unfold Step.searchBelow
    refine (read fun l hl _ _ hs => hs.data (hl _ _ hab)).bind fun l hl d d' hd => ?_
    exact searchNodes hf (fun _ _ _ hxy => ih hxy) hd.children

theorem search {f : Step} (hf : Respectful settings f) : Respectful settings (search f) := by
  intro m a b hab
  refine Eval.Alike.readSettings.bind fun l hl c c' hc => ?_
  obtain ⟨rfl, rfl⟩ := hc
  exact (searchBelow hf _ (hl _ _ hab)).bind fun _ _ _ _ hcs => new (.slice hcs)

theorem descend (target : DescentTarget) : Respectful settings (descend target) := by
  intro m a b hab
  exact (read fun l hl _ _ hs => (hs.tree (hl _ _ hab)).found).bind fun _ _ _ _ hcs =>
    new (.slice hcs)

end DocSelect.Step.Respectful
