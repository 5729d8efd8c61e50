import Strips.Proofs.Exclusions
import Strips.Workbench.Actions

/-!
# The search on a workbench

The search for instances runs on the cells of the schema, which stand among those of other objects:
it binds cells, goes on with the next precondition, and unbinds them again. What it does under each
assignment may change the objects of the workbench, but not the arena.

Since unifying is matching and what was bound is unbound again, the search visits the assignments
that `Schema.assignments` lists, in this order, and leaves the arena as it was.

## Main definitions

* `Bench.Gives` – an operation succeeds with an answer, and leaves a workbench.
* `Bench.Visits` – what is done under each assignment keeps an invariant.
* `Bench.Reaches` – an operation comes to what the invariant says of some assignments.

## Main results

* `Bench.Gives.bind`, `Bench.gives_action`, `Bench.gives_put`, … – how single operations run.
* `Bench.reaches_underAssignments` – what the search visits.
-/

namespace Strips

namespace Bench

variable {α β : Type} {b b' b'' : Workbench}

/-- The operation succeeds with an answer, and leaves a workbench. -/
def Gives (m : Bench α) (b : Workbench) (x : α) (b' : Workbench) : Prop := m.run.run b = (.ok x, b')

/-- After an operation that succeeds, a computation goes on with its answer. -/
theorem Gives.run_bind {m : Bench α} {f : α → Bench β} {x : α} (h : Gives m b x b') :
    (m >>= f).run.run b = (f x).run.run b' := by
  rw [Gives] at h
  rw [Strips.run_bind, h]

theorem Gives.bind {m : Bench α} {f : α → Bench β} {x : α} {y : β} (h : Gives m b x b')
    (hf : Gives (f x) b' y b'') : Gives (m >>= f) b y b'' :=
  h.run_bind.trans hf

theorem gives_pure (x : α) : Gives (Pure.pure x) b x b := rfl

/-- The result of an operation may be changed. -/
theorem gives_map {m : Bench α} {x : α} (h : Gives m b x b') (f : α → β) :
    Gives (f <$> m) b (f x) b' := by
  rw [map_eq_pure_bind]
  exact h.bind (gives_pure (f x))

theorem gives_get : Gives get b b b := rfl

theorem gives_arena : Gives arena b b.arena b := rfl

theorem gives_setArena (a : Arena) : Gives (setArena a) b () { b with arena := a } := rfl

theorem gives_add (item : Item) :
    Gives (add item) b b.items.size { b with items := b.items.push item } := rfl

theorem gives_put (handle : Handle) (item : Item) :
    Gives (put handle item) b () { b with items := b.items.setIfInBounds handle item } := rfl

theorem gives_item {handle : Handle} {it : Item} (h : b.items[handle]? = some it) :
    Gives (item handle) b it b := by
  refine Gives.bind gives_get ?_
  rw [h]
  exact gives_pure it

theorem gives_action {handle : Handle} {a : Action} (h : b.items[handle]? = some (.action a)) :
    Gives (action handle) b a b :=
  (gives_item h).bind (gives_pure a)

theorem gives_file {handle : Handle} {f : FileItem} (h : b.items[handle]? = some (.file f)) :
    Gives (file handle) b f b :=
  (gives_item h).bind (gives_pure f)

theorem gives_factLayer {handle : Handle} {facts : LiteralSet} {x : Exclusions}
    (h : b.items[handle]? = some (.factLayer facts x)) :
    Gives (factLayer handle) b (facts, x) b :=
  (gives_item h).bind (gives_pure (facts, x))

theorem gives_clearAction {handle : Handle} {a : Action}
    (h : b.items[handle]? = some (.action a)) :
    Gives (clearAction handle) b () { b with arena := a.clear b.arena } :=
  (gives_action h).bind ((gives_arena).bind (gives_setArena _))

theorem gives_forM_cons {f : α → Bench Unit} {x : α} {xs : List α} (h : Gives (f x) b () b')
    (hs : Gives (xs.forM f) b' () b'') : Gives ((x :: xs).forM f) b () b'' :=
  h.bind hs

/-- Asking one thing after the other. -/
theorem gives_mapM_of_forall₂ {f : α → Bench β} {γ : Type} {R : β → γ → Prop} {xs : List α}
    {ys : List γ} (h : List.Forall₂ (fun x y => ∃ z, Gives (f x) b z b ∧ R z y) xs ys) :
    ∃ zs, Gives (xs.mapM f) b zs b ∧ List.Forall₂ R zs ys := by
  induction h with
  | nil => exact ⟨[], gives_pure [], .nil⟩
  | cons hx _ ih =>
    obtain ⟨z, hz, hzy⟩ := hx
    obtain ⟨zs, hzs, hlast⟩ := ih
    refine ⟨z :: zs, ?_, .cons hzy hlast⟩
    rw [List.mapM_cons]
    exact hz.bind (hzs.bind (gives_pure _))

theorem Gives.tryCatch {m : Bench α} {x : α} (h : Gives m b x b') (f : BenchError → Bench α) :
    Gives (MonadExcept.tryCatch m f) b x b' := by
  rw [Gives] at h ⊢
  simp only [MonadExcept.tryCatch, tryCatchThe, MonadExceptOf.tryCatch, ExceptT.tryCatch,
    ExceptT.run_mk, StateT.run_bind]
  have hrun : StateT.run m b = pure (Except.ok x, b') := h
  rw [hrun]
  rfl

theorem gives_clearAll : ∀ {is : List Nat} {b : Workbench},
    Gives (is.forM fun i => do setArena ((← arena).clear i)) b ()
      { b with arena := is.foldl Arena.clear b.arena }
  | [], _ => gives_pure ()
  | i :: _, b =>
    gives_forM_cons (gives_arena.bind (gives_setArena (b.arena.clear i))) gives_clearAll

/-! ### Unifying -/

theorem gives_unify_matched {l m : Literal} {bound : List Nat} {a : Arena}
    (h : l.unify b.arena m = (.matched bound, a)) :
    Gives (unify l m) b (some bound) { b with arena := a } := by
  refine gives_arena.bind ?_
  rw [h]
  exact (gives_setArena a).bind (gives_pure _)

theorem gives_unify_failed {l m : Literal} {a : Arena} (h : l.unify b.arena m = (.failed, a)) :
    Gives (unify l m) b none { b with arena := a } := by
  refine gives_arena.bind ?_
  rw [h]
  exact (gives_setArena a).bind (gives_pure _)

end Bench

/-- While the cells of a schema are bound, the constants keep their values. -/
theorem Arena.Hosts.keeps {host a : Arena} {offset : Nat} (h : host.Hosts a offset)
    {ρ : Nat → Option String} (hρ : a.Retains ρ) {b : Workbench}
    (hb : b.arena = host.graft a offset ρ) : b.Keeps host := fun k hk =>
  ⟨h.sound.isSome_constant k hk, by rw [hb]; exact h.value?_graft_of_isConstant hρ hk⟩

/-- The layer of the facts that constant literals say. -/
def LiteralSet.layer (arena : Arena) (facts : LiteralSet) (r : PairRelation Fact) : FactLayer :=
  ⟨facts.members.map (·.shown arena), r⟩

theorem LiteralSet.named_layer (arena : Arena) (facts : LiteralSet) (r : PairRelation Fact)
    (name : String) :
    (facts.layer arena r).named name = (facts.named name).map (·.shown arena) := by
  rw [FactLayer.named, layer, List.filter_map]
  rfl

namespace Bench

/-- Unify with a literal, go on if that succeeds, and unbind what was bound. -/
def whileUnified (l fact : Literal) (next : Bench Unit) : Bench Unit := do
  if let some bound ← unify l fact then
    next
    bound.forM fun i => do setArena ((← arena).clear i)

/-- What the search does with one literal of the layer. -/
def tryFact (layer : LiteralSet × Exclusions) (strict : Bool) (visit : Bench Unit) (l : Literal)
    (rest chosen : List Literal) (fact : Literal) : Bench Unit := do
  let b ← get
  let isMutex := fun (m : Literal) => layer.2.contains b (.literal fact) (.literal m)
  if !(strict && chosen.any isMutex) then
    whileUnified l fact (underAssignments layer strict visit rest (chosen ++ [fact]))

theorem underAssignments_cons (layer : LiteralSet × Exclusions) (strict : Bool)
    (visit : Bench Unit) (l : Literal) (rest chosen : List Literal) :
    underAssignments layer strict visit (l :: rest) chosen =
      (layer.1.named l.name).forM (tryFact layer strict visit l rest chosen) := by
  rw [underAssignments]
  rfl

/-- Running an operation leaves the arena as it is and comes to what `I` says of some
assignments. -/
def Reaches (I : List Arena → Workbench → Prop) (m : Bench Unit) (b : Workbench)
    (seen : List Arena) : Prop :=
  ∃ b', Gives m b () b' ∧ b'.arena = b.arena ∧ I seen b'

/-- What is done under an assignment of the cells of a schema, and what holds of the workbench when
it was done under a list of them. -/
structure Visits (host a : Arena) (offset : Nat) (visit : Bench Unit)
    (I : List Arena → Workbench → Prop) : Prop where
  visit : ∀ {seen b ρ}, a.Retains ρ → I seen b → b.arena = host.graft a offset ρ →
    Reaches I visit b (seen ++ [a.withValues ρ])
  /-- What holds does not depend on the arena. -/
  arena : ∀ {seen b} c, I seen b → I seen { b with arena := c }

section Search

variable {host a : Arena} {offset : Nat} (h : host.Hosts a offset) {facts : LiteralSet}
  {x : Exclusions} {r : PairRelation Fact} (hx : x.Says host r)
  (hfacts : ∀ m ∈ facts.members, m.isConstant host = true) {strict : Bool} {visit : Bench Unit}
  {I : List Arena → Workbench → Prop} (hvisit : Visits host a offset visit I)

include h hx in
/-- In strict mode a literal is left out if the fact that it says is. -/
theorem any_contains {b : Workbench} {ρ : Nat → Option String} (hρ : a.Retains ρ)
    (hb : b.arena = host.graft a offset ρ) {chosen : List Literal}
    (hchosen : ∀ m ∈ chosen, m.isConstant host = true) {fact : Literal}
    (hfact : fact.isConstant host = true) :
    (chosen.any fun m => x.contains b (.literal fact) (.literal m)) =
      (chosen.map (·.shown host)).any ((facts.layer host r).isMutex (fact.shown host)) := by
  rw [List.any_map, Bool.eq_iff_iff, List.any_eq_true, List.any_eq_true]
  refine exists_congr fun m => and_congr_right fun hm => ?_
  rw [hx.contains (h.keeps hρ hb) hfact (hchosen m hm)]
  rfl

include h hvisit in
/-- While a literal of the schema is unified with a constant one, what follows is visited under the
assignment that this gives, if it gives one. -/
theorem reaches_whileUnified {l : Literal} (hl : a.Holds l.terms) {fact : Literal}
    (hfact : fact.isConstant host = true) {ρ : Nat → Option String} (hρ : a.Retains ρ)
    {seen : List Arena} {b : Workbench} (hI : I seen b) (hb : b.arena = host.graft a offset ρ)
    {next : Bench Unit} {more : Arena → List Arena}
    (hnext : ∀ {ρ}, a.Retains ρ → ∀ {b : Workbench}, I seen b → b.arena = host.graft a offset ρ →
      Reaches I next b (seen ++ more (a.withValues ρ))) :
    Reaches I (whileUnified (l.shift offset) fact next) b (seen ++ ((Literal.unified?
      (l.unify (a.withValues ρ) (fact.shown host).literal)).map more).getD []) := by
  have hunifies := h.unifies_unify hl hfact hρ
  have harity : fact.arity = (fact.shown host).arguments.length := by
    rw [Literal.shown, Literal.values, List.length_map, List.length_map]
    rfl
  have hname : (fact.shown host).name = fact.name := rfl
  rw [h.loose.unify_withValues hl, ← harity, hname]
  generalize hm : (if l.name = fact.name ∧ l.arity = fact.arity then
    a.matchTerms ρ l.terms (fact.shown host).arguments else none) = matched at hunifies
  have hmatched : (if l.name = fact.name ∧ l.arity = fact.arity then
      (a.matchTerms ρ l.terms (fact.shown host).arguments).map a.withValues else none) =
      matched.map a.withValues := by
    rw [← hm]
    split <;> rfl
  rw [hmatched]
  rw [← hb] at hunifies
  cases matched with
  | none =>
    refine ⟨{ b with arena := host.graft a offset ρ },
      (gives_unify_failed hunifies).bind (gives_pure ()), hb.symm, ?_⟩
    rw [Option.map_none, Option.map_none, Option.getD_none, List.append_nil]
    exact hvisit.arena _ hI
  | some ρ' =>
    obtain ⟨is, hout, hbinds⟩ := hunifies
    obtain ⟨b₂, hgives, harena, hI₂⟩ := hnext hbinds.retains (hvisit.arena _ hI) rfl
    -- what was bound is unbound again
    have hback : (is.map (· + offset)).foldl Arena.clear b₂.arena = b.arena := by
      rw [harena, hb]
      exact h.foldl_clear_of_binds hbinds
    refine ⟨_, (gives_unify_matched hout).bind (hgives.bind gives_clearAll), hback, ?_⟩
    exact hvisit.arena _ hI₂

include h hx hvisit in
/-- One literal of the layer is left out, or what follows is visited while it is unified with. -/
theorem reaches_tryFact {l : Literal} (hl : a.Holds l.terms) {rest chosen : List Literal}
    (hchosen : ∀ m ∈ chosen, m.isConstant host = true) {fact : Literal}
    (hfact : fact.isConstant host = true)
    (hrest : ∀ {ρ : Nat → Option String}, a.Retains ρ → ∀ {seen b}, I seen b →
      b.arena = host.graft a offset ρ →
      Reaches I (underAssignments (facts, x) strict visit (rest.map (Literal.shift offset))
        (chosen ++ [fact])) b (seen ++ Schema.assignments (facts.layer host r) strict rest
          (chosen.map (·.shown host) ++ [fact.shown host]) (a.withValues ρ)))
    {ρ : Nat → Option String} (hρ : a.Retains ρ) {seen : List Arena} {b : Workbench}
    (hI : I seen b) (hb : b.arena = host.graft a offset ρ) :
    Reaches I (tryFact (facts, x) strict visit (l.shift offset) (rest.map (Literal.shift offset))
      chosen fact) b (seen ++
        if strict && (chosen.map (·.shown host)).any
          ((facts.layer host r).isMutex (fact.shown host)) then []
        else ((Literal.unified? (l.unify (a.withValues ρ) (fact.shown host).literal)).map
          (Schema.assignments (facts.layer host r) strict rest
            (chosen.map (·.shown host) ++ [fact.shown host]))).getD []) := by
  have hmutex : (chosen.any fun m => x.contains b (.literal fact) (.literal m)) =
      (chosen.map (·.shown host)).any ((facts.layer host r).isMutex (fact.shown host)) :=
    any_contains h hx hρ hb hchosen hfact
  have hget : ∀ {seen}, Reaches I (if !(strict && chosen.any fun m =>
      x.contains b (.literal fact) (.literal m)) then whileUnified (l.shift offset) fact
        (underAssignments (facts, x) strict visit (rest.map (Literal.shift offset))
          (chosen ++ [fact]))
      else Pure.pure ()) b seen → Reaches I (tryFact (facts, x) strict visit (l.shift offset)
        (rest.map (Literal.shift offset)) chosen fact) b seen := by
    rintro seen ⟨b', hgives, hrest⟩
    exact ⟨b', gives_get.bind hgives, hrest⟩
  apply hget
  rw [hmutex]
  cases hskip : (strict && (chosen.map (·.shown host)).any
      ((facts.layer host r).isMutex (fact.shown host))) with
  | true =>
    rw [if_pos rfl, List.append_nil]
    exact ⟨b, gives_pure (), rfl, hI⟩
  | false =>
    rw [if_neg Bool.false_ne_true]
    exact reaches_whileUnified h hvisit hl hfact hρ hI hb fun hρ _ hI hb => hrest hρ hI hb

include h hx hfacts hvisit in
/-- **The search** visits the assignments that the schema has over the layer. -/
theorem reaches_underAssignments : ∀ {ls : List Literal}, (∀ l ∈ ls, a.Holds l.terms) →
    ∀ {chosen : List Literal}, (∀ m ∈ chosen, m.isConstant host = true) →
    ∀ {ρ : Nat → Option String}, a.Retains ρ → ∀ {seen : List Arena} {b : Workbench}, I seen b →
      b.arena = host.graft a offset ρ →
      Reaches I (underAssignments (facts, x) strict visit (ls.map (Literal.shift offset)) chosen) b
        (seen ++ Schema.assignments (facts.layer host r) strict ls (chosen.map (·.shown host))
          (a.withValues ρ))
  | [], _, chosen, _, ρ, hρ, seen, b, hI, hb => by
    rw [List.map_nil, underAssignments, Schema.assignments]
    exact hvisit.visit hρ hI hb
  | l :: rest, hls, chosen, hchosen, ρ, hρ, seen, b, hI, hb => by
    rw [List.map_cons, underAssignments_cons, Arena.assignments_cons, LiteralSet.named_layer]
    have hname : (l.shift offset).name = l.name := rfl
    rw [hname]
    have hnamed : ∀ m ∈ facts.named l.name, m.isConstant host = true := fun m hm =>
      hfacts m (List.mem_filter.1 hm).1
    -- the literals of the layer one after the other, each from the same arena
    generalize facts.named l.name = named at hnamed
    induction named generalizing seen b with
    | nil =>
      refine ⟨b, gives_pure (), rfl, ?_⟩
      rw [List.map_nil, List.flatMap_nil, List.append_nil]
      exact hI
    | cons fact named ih =>
      have hfact := hnamed fact List.mem_cons_self
      have hchosen' : ∀ m ∈ chosen ++ [fact], m.isConstant host = true := by
        intro m hm
        rcases List.mem_append.1 hm with hm | hm
        · exact hchosen m hm
        · exact List.mem_singleton.1 hm ▸ hfact
      have hnext : ∀ {ρ : Nat → Option String}, a.Retains ρ → ∀ {seen b}, I seen b →
          b.arena = host.graft a offset ρ →
          Reaches I (underAssignments (facts, x) strict visit (rest.map (Literal.shift offset))
            (chosen ++ [fact])) b (seen ++ Schema.assignments (facts.layer host r) strict rest
              (chosen.map (·.shown host) ++ [fact.shown host]) (a.withValues ρ)) := by
        intro ρ hρ seen b hI hb
        have hreaches := reaches_underAssignments
          (fun m hm => hls m (List.mem_cons_of_mem l hm)) hchosen' hρ hI hb
        rwa [List.map_append] at hreaches
      obtain ⟨b₁, hgives, harena, hI₁⟩ := reaches_tryFact h hx hvisit
        (hls l List.mem_cons_self) hchosen hfact hnext hρ hI hb
      obtain ⟨b₂, hgives', harena', hI₂⟩ := ih _ _ hI₁ (harena.trans hb)
        fun m hm => hnamed m (List.mem_cons_of_mem fact hm)
      refine ⟨b₂, gives_forM_cons hgives hgives', harena'.trans harena, ?_⟩
      rw [List.map_cons, List.flatMap_cons, ← List.append_assoc]
      exact hI₂

end Search

end Bench

end Strips
