import Strips.Proofs.Loading

/-!
# Finding the instances of a schema

On a workbench the instances of a schema over a layer are added to a file that may hold some
already. The search meets the assignments of the schema one after the other; at each of them a copy
of the schema is made and filed, if no entry of the file has its key. The invariant of the search is
that the new entries are the instances met so far that were not there before, each once
(`Bench.Collects`).

What the search meets are the instances under strings that fit, so these are what the file has got
in the end. The variables are unbound before the search, so what was bound before makes no
difference, and they are unbound again afterwards.

## Main definitions

* `Step.key` – the key under which an instance is filed.
* `Workbench.Presents` – an object is a layer of constant facts.
* `Bench.Adds` – the entries added to a file are the instances over a layer that were not there.

## Main results

* `Bench.Collects.addInstance` – one assignment.
* `Bench.find_exact` – the whole search.
-/

namespace Strips

/-- The key of a step as an instance. -/
def Step.key (t : Step) : ActionKey :=
  let keys := fun (facts : List Fact) => (facts.map Fact.literal).map (·.key .empty)
  ⟨t.noop, t.name, t.arguments.map some, keys t.preconditions, keys t.deleted, keys t.added⟩

theorem Step.key_toAction (t : Step) : t.toAction.key = some t.key := rfl

theorem ActionKey.same_self (k : ActionKey) : k.same k = true := by
  simp [ActionKey.same, sameElements_iff]

/-! ### Changing objects -/

namespace Workbench

/-- Actions stay as they are, and files keep their instances. -/
structure Retains (b b' : Workbench) : Prop where
  arena : b'.arena = b.arena
  action : ∀ {h : Handle} {a : Action}, b.items[h]? = some (.action a) →
    b'.items[h]? = some (.action a)
  file : ∀ {h : Handle} {f : FileItem}, b.items[h]? = some (.file f) →
    ∃ g, b'.items[h]? = some (.file g) ∧ g.instances = f.instances

variable {b : Workbench}

theorem Retains.refl (b : Workbench) : b.Retains b := ⟨rfl, id, fun h => ⟨_, h, rfl⟩⟩

theorem retains_push (b : Workbench) (x : Item) :
    b.Retains { b with items := b.items.push x } :=
  ⟨rfl, getElem?_push_of_some, fun h => ⟨_, getElem?_push_of_some h, rfl⟩⟩

theorem getElem?_set_self {items : Array Item} {h : Handle} {x : Item} (hx : items[h]? = some x)
    (y : Item) : (items.setIfInBounds h y)[h]? = some y := by
  obtain ⟨hlt, -⟩ := Array.getElem?_eq_some_iff.1 hx
  exact Array.getElem?_setIfInBounds_self_of_lt hlt

theorem getElem?_set_of_ne {items : Array Item} {h k : Handle} (hne : h ≠ k) (y : Item) :
    (items.setIfInBounds h y)[k]? = items[k]? :=
  Array.getElem?_setIfInBounds_ne hne

/-- Putting a file in place of one leaves the actions. -/
theorem action_set {h k : Handle} {f g : FileItem} {a : Action}
    (hf : b.items[h]? = some (.file f)) (ha : b.items[k]? = some (.action a)) :
    (b.items.setIfInBounds h (.file g))[k]? = some (.action a) := by
  have hne : h ≠ k := by
    rintro rfl
    rw [hf] at ha
    cases ha
  rw [getElem?_set_of_ne hne, ha]

theorem retains_set {h : Handle} {f g : FileItem} (hf : b.items[h]? = some (.file f))
    (hfg : g.instances = f.instances) :
    b.Retains { b with items := b.items.setIfInBounds h (.file g) } := by
  refine ⟨rfl, action_set hf, fun {k f'} hf' => ?_⟩
  by_cases hk : h = k
  · subst hk
    rw [hf] at hf'
    cases hf'
    exact ⟨g, getElem?_set_self hf _, hfg⟩
  · exact ⟨f', (getElem?_set_of_ne hk _).trans hf', rfl⟩

end Workbench

namespace Bench

variable {b : Workbench}

/-! ### Copying and filing -/

theorem gives_copy {schema : Handle} {a : Action} {t : Step}
    (hschema : b.items[schema]? = some (.action a)) (ht : a.step? b.arena = some t)
    (harguments : a.arguments b.arena = t.arguments.map some) :
    Gives (copy schema) b b.items.size { b with items := b.items.push (.action t.toAction) } := by
  refine (gives_action hschema).bind (gives_arena.bind ?_)
  rw [ht]
  refine gives_arena.bind ?_
  rw [harguments]
  exact gives_add _

theorem gives_key {handle : Handle} {a : Action} {k : ActionKey}
    (h : b.items[handle]? = some (.action a)) (hk : a.key = some k) :
    Gives (key handle) b k b := by
  refine (gives_action h).bind ?_
  rw [hk]
  exact gives_pure k

/-- Filing an action keeps all actions and instances. -/
theorem gives_register {handle into : Handle} {a : Action} {f : FileItem}
    (ha : b.items[handle]? = some (.action a)) (hf : b.items[into]? = some (.file f)) :
    ∃ b', Gives (register handle into) b () b' ∧ b.Retains b' :=
  ⟨_, (gives_action ha).bind ((gives_action ha).bind ((gives_file hf).bind
    (gives_get.bind (gives_put _ _)))), Workbench.retains_set hf rfl⟩

theorem gives_forM_register {handle : Handle} {a : Action} {dependencies : Option Handle}
    (ha : b.items[handle]? = some (.action a))
    (hd : ∀ d ∈ dependencies, ∃ g, b.items[d]? = some (.file g)) :
    ∃ b', Gives (dependencies.forM (register handle)) b () b' ∧ b.Retains b' := by
  cases dependencies with
  | none => exact ⟨b, gives_pure (), .refl b⟩
  | some d =>
    obtain ⟨g, hg⟩ := hd d rfl
    exact gives_register ha hg

/-! ### The invariant of the search -/

/-- The new entries of a file are the instances met so far that were not there before. -/
structure Collects (schema into : Handle) (dependencies : Option Handle) (a : Action)
    (old : List (ActionKey × Handle)) (steps : List Step) (added : List (ActionKey × Handle))
    (b : Workbench) : Prop where
  schema : b.items[schema]? = some (.action a)
  file : ∃ f, b.items[into]? = some (.file f) ∧ f.instances = old ++ added
  dependencies : ∀ d ∈ dependencies, ∃ g, b.items[d]? = some (.file g)
  sound : ∀ e ∈ added, ∃ t ∈ steps, e.1 = t.key ∧ b.items[e.2]? = some (.action t.toAction)
  complete : ∀ t ∈ steps, ∃ e ∈ old ++ added, e.1.same t.key = true
  new : ∀ e ∈ added, ∀ o ∈ old, o.1.same e.1 = false
  once : added.Pairwise fun e e' => e.1.same e'.1 = false

namespace Collects

variable {schema into : Handle} {dependencies : Option Handle} {a : Action}
  {old added : List (ActionKey × Handle)} {steps : List Step} {b' : Workbench}
  (h : Collects schema into dependencies a old steps added b)

include h

theorem of_retains (hb : b.Retains b') :
    Collects schema into dependencies a old steps added b' where
  schema := hb.action h.schema
  file := by
    obtain ⟨f, hf, hinstances⟩ := h.file
    obtain ⟨g, hg, heq⟩ := hb.file hf
    exact ⟨g, hg, heq.trans hinstances⟩
  dependencies d hd := by
    obtain ⟨f, hf⟩ := h.dependencies d hd
    obtain ⟨g, hg, -⟩ := hb.file hf
    exact ⟨g, hg⟩
  sound e he := by
    obtain ⟨t, ht, hkey, haction⟩ := h.sound e he
    exact ⟨t, ht, hkey, hb.action haction⟩
  complete := h.complete
  new := h.new
  once := h.once

/-- What is met does not depend on the arena. -/
theorem withArena (c : Arena) :
    Collects schema into dependencies a old steps added { b with arena := c } :=
  ⟨h.schema, h.file, h.dependencies, h.sound, h.complete, h.new, h.once⟩

/-- Meeting an instance that the file has. -/
theorem known {t : Step} (ht : ∃ e ∈ old ++ added, e.1.same t.key = true) :
    Collects schema into dependencies a old (steps ++ [t]) added b := by
  refine ⟨h.schema, h.file, h.dependencies, fun e he => ?_, fun t' ht' => ?_, h.new, h.once⟩
  · obtain ⟨t', ht', hkey, haction⟩ := h.sound e he
    exact ⟨t', List.mem_append_left _ ht', hkey, haction⟩
  · rcases List.mem_append.1 ht' with ht' | ht'
    · exact h.complete t' ht'
    · exact List.mem_singleton.1 ht' ▸ ht

/-- Meeting an instance that the file has not, and filing it. -/
theorem filed {t : Step} {f : FileItem} {handle : Handle}
    (hf : b.items[into]? = some (.file f)) (hinstances : f.instances = old ++ added)
    (ht : b.items[handle]? = some (.action t.toAction))
    (hnew : ∀ e ∈ old ++ added, e.1.same t.key = false) :
    Collects schema into dependencies a old (steps ++ [t]) (added ++ [(t.key, handle)])
      { b with items := b.items.setIfInBounds into
                (.file { f with instances := f.instances ++ [(t.key, handle)] }) } := by
  refine ⟨Workbench.action_set hf h.schema, ⟨_, Workbench.getElem?_set_self hf _, ?_⟩,
    fun d hd => ?_, fun e he => ?_, fun t' ht' => ?_, fun e he o ho => ?_, ?_⟩
  · rw [hinstances, List.append_assoc]
  · obtain ⟨g, hg⟩ := h.dependencies d hd
    by_cases hne : into = d
    · subst hne
      exact ⟨_, Workbench.getElem?_set_self hf _⟩
    · exact ⟨g, (Workbench.getElem?_set_of_ne hne _).trans hg⟩
  · rcases List.mem_append.1 he with he | he
    · obtain ⟨t', ht', hkey, haction⟩ := h.sound e he
      exact ⟨t', List.mem_append_left _ ht', hkey, Workbench.action_set hf haction⟩
    · obtain rfl := List.mem_singleton.1 he
      exact ⟨t, List.mem_append_right _ List.mem_cons_self, rfl, Workbench.action_set hf ht⟩
  · rw [← List.append_assoc]
    rcases List.mem_append.1 ht' with ht' | ht'
    · obtain ⟨e, he, hsame⟩ := h.complete t' ht'
      exact ⟨e, List.mem_append_left _ he, hsame⟩
    · obtain rfl := List.mem_singleton.1 ht'
      exact ⟨_, List.mem_append_right _ List.mem_cons_self, ActionKey.same_self _⟩
  · rcases List.mem_append.1 he with he | he
    · exact h.new e he o ho
    · obtain rfl := List.mem_singleton.1 he
      exact hnew o (List.mem_append_left _ ho)
  · refine List.pairwise_append.2 ⟨h.once, List.pairwise_singleton _ _, fun e he e' he' => ?_⟩
    obtain rfl := List.mem_singleton.1 he'
    exact hnew e (List.mem_append_right _ he)

end Collects

/-- Nothing is met at the start. -/
theorem collects_nil {schema into : Handle} {dependencies : Option Handle} {a : Action}
    {f : FileItem} (hschema : b.items[schema]? = some (.action a))
    (hf : b.items[into]? = some (.file f))
    (hd : ∀ d ∈ dependencies, ∃ g, b.items[d]? = some (.file g)) :
    Collects schema into dependencies a f.instances [] [] b :=
  ⟨hschema, ⟨f, hf, (List.append_nil _).symm⟩, hd, fun _ he => absurd he List.not_mem_nil,
    fun _ ht => absurd ht List.not_mem_nil, fun _ he => absurd he List.not_mem_nil, .nil⟩

/-- **One assignment.** The instance under it, if there is one, is filed unless it is known. -/
theorem Collects.addInstance {schema into : Handle} {dependencies : Option Handle} {a : Action}
    {old added : List (ActionKey × Handle)} {steps : List Step}
    (h : Collects schema into dependencies a old steps added b)
    (harguments : ∀ t, a.step? b.arena = some t →
      a.arguments b.arena = t.arguments.map some) :
    ∃ added' b', Gives (addInstance schema into dependencies) b () b' ∧ b'.arena = b.arena ∧
      Collects schema into dependencies a old (steps ++ (a.step? b.arena).toList) added' b' := by
  by_cases hground : a.isGround b.arena = true
  · obtain ⟨t, ht⟩ : ∃ t, a.step? b.arena = some t := ⟨_, if_pos hground⟩
    -- the copy is a new object
    have hcopy := gives_copy h.schema ht (harguments t ht)
    have hpushed := h.of_retains (Workbench.retains_push b (.action t.toAction))
    have hitem : (b.items.push (.action t.toAction))[b.items.size]? =
        some (.action t.toAction) := Array.getElem?_push_size
    have hkey : Gives (key b.items.size) { b with items := b.items.push (.action t.toAction) } t.key
        { b with items := b.items.push (.action t.toAction) } := gives_key hitem t.key_toAction
    obtain ⟨f, hf, hinstances⟩ := hpushed.file
    rw [ht, Option.toList_some]
    by_cases hknown : f.instances.any (·.1.same t.key) = true
    · refine ⟨added, _, (gives_action h.schema).bind (gives_arena.bind ?_), ?_,
        hpushed.known ?_⟩
      · rw [if_pos hground]
        refine hcopy.bind (hkey.bind ((gives_file hf).bind ?_))
        rw [hknown]
        exact gives_pure ()
      · rfl
      · rw [hinstances] at hknown
        exact List.any_eq_true.1 hknown
    · have hnew : ∀ e ∈ old ++ added, e.1.same t.key = false := by
        intro e he
        rw [Bool.not_eq_true, hinstances, List.any_eq_false] at hknown
        exact Bool.eq_false_iff.2 (hknown e he)
      have hfiled := hpushed.filed hf hinstances hitem hnew
      obtain ⟨b', hregister, hretains⟩ :=
        gives_forM_register (Workbench.action_set hf hitem) hfiled.dependencies
      refine ⟨_, b', (gives_action h.schema).bind (gives_arena.bind ?_), hretains.arena,
        hfiled.of_retains hretains⟩
      rw [if_pos hground]
      refine hcopy.bind (hkey.bind ((gives_file hf).bind ?_))
      rw [Bool.eq_false_iff.2 hknown]
      exact (gives_put _ _).bind hregister
  · have ht : a.step? b.arena = none := if_neg hground
    rw [ht]
    refine ⟨added, b, (gives_action h.schema).bind (gives_arena.bind ?_), rfl,
      (List.append_nil steps).symm ▸ h⟩
    rw [if_neg hground]
    exact gives_pure ()

end Bench

/-! ### The whole search -/

/-- The arguments of a step are the values of the parameters. -/
theorem Schema.Regular.arguments_eq {s : Schema} (h : s.Regular) {arena : Arena} {t : Step}
    (ht : s.action.step? arena = some t) :
    s.action.arguments arena = t.arguments.map some := by
  rw [Action.step?] at ht
  split at ht
  · rename_i hground
    obtain rfl := Option.some.inj ht
    have hliteral : ∀ l ∈ s.action.literals, l.isGround arena = true := by
      intro l hl
      simp only [Action.isGround, LiteralSet.isGround, Bool.and_eq_true, List.all_eq_true]
        at hground
      rcases Action.mem_literals.1 hl with hl | hl | hl
      · exact hground.1.1 l hl
      · exact hground.1.2 l hl
      · exact hground.2 l hl
    rw [Action.shownStep, Action.arguments, h.key, List.map_map, List.map_map]
    refine List.map_congr_left fun i hi => ?_
    obtain ⟨l, hl, hil⟩ := h.parameters i hi
    obtain ⟨v, hv⟩ := Option.isSome_iff_exists.1 (List.all_eq_true.1 (hliteral l hl) _ hil)
    have hvalue : arena.value? i = some v := hv
    rw [Function.comp_apply, Function.comp_apply, hvalue]
    rfl
  · cases ht

/-- An object is a layer of constant literals, which say the facts of `layer`; what excludes each
other was noted for constant literals. -/
def Workbench.Presents (b : Workbench) (handle : Handle) (layer : FactLayer) : Prop :=
  ∃ (facts : LiteralSet) (x : Exclusions), b.items[handle]? = some (.factLayer facts x) ∧
    (∀ l ∈ facts.members, l.isConstant b.arena = true) ∧ x.Says b.arena layer.mutexes ∧
    facts.members.map (·.shown b.arena) = layer.facts

/-- A layer of facts that exclude nothing. -/
theorem Workbench.presents_of_facts {b : Workbench} {handle : Handle} {facts : List Fact}
    (h : b.items[handle]? = some (.factLayer ⟨facts.map Fact.literal⟩ {})) :
    b.Presents handle ⟨facts, {}⟩ := by
  have hshown : ∀ f : Fact, f.literal.shown b.arena = f := by
    rintro ⟨name, arguments⟩
    simp [Fact.literal, Literal.shown, Literal.values, Term.value?, Term.valueText,
      Function.comp_def]
  refine ⟨_, _, h, fun l hl => ?_, .empty, ?_⟩
  · obtain ⟨f, -, rfl⟩ := List.mem_map.1 hl
    simp [Fact.literal, Literal.isConstant, Term.isConstant]
  · rw [List.map_map]
    exact List.map_id'' hshown facts

namespace Bench

/-- The entries added to those of a file are the instances of a schema over a layer that were not
there, each once. -/
structure Adds (s : Schema) (layer : FactLayer) (strict : Bool) (b : Workbench)
    (old added : List (ActionKey × Handle)) : Prop where
  sound : ∀ e ∈ added, ∃ σ, s.Fits layer strict σ ∧ e.1 = (s.action.under σ).key ∧
    b.items[e.2]? = some (.action (s.action.under σ).toAction)
  complete : ∀ σ, s.Fits layer strict σ → ∃ e ∈ old ++ added,
    e.1.same (s.action.under σ).key = true
  new : ∀ e ∈ added, ∀ o ∈ old, o.1.same e.1 = false
  once : added.Pairwise fun e e' => e.1.same e'.1 = false

section Find

variable {text : String} {p : Problem} {s : Schema} {b : Workbench}
  {schema layer into : Handle} {offset : Nat} {dependencies : Option Handle}

/-- At the start and at the end of a search the variables are unbound. -/
theorem gives_clearAction_placed (hs : s.Built) (hplaced : s.Placed b.arena offset)
    {b' : Workbench} (hschema : b'.items[schema]? = some (.action (s.action.shift offset)))
    {ρ : Nat → Option String} (hb' : b'.arena = b.arena.graft s.arena offset ρ)
    (hρ : s.arena.Retains ρ) (hunbound : ∀ i < s.arena.size, s.arena.isConstant i = false →
      i ∉ s.action.parameters → ρ i = none) :
    Gives (clearAction schema) b' ()
      { b' with arena := b.arena.graft s.arena offset s.arena.value? } := by
  have hclear := gives_clearAction hschema
  rwa [hb', hs.clear_placed hplaced hρ hunbound] at hclear

/-- What holds of the workbench when the search has visited some assignments. -/
def Collected (s : Schema) (schema into : Handle) (dependencies : Option Handle) (offset : Nat)
    (old : List (ActionKey × Handle)) (seen : List Arena) (b : Workbench) : Prop :=
  ∃ added, Collects schema into dependencies (s.action.shift offset) old
    (seen.filterMap s.action.step?) added b

theorem visits_addInstance (hs : s.Regular) (hosts : b.arena.Hosts s.arena offset)
    (old : List (ActionKey × Handle)) :
    Visits b.arena s.arena offset (addInstance schema into dependencies)
      (Collected s schema into dependencies offset old) where
  visit := by
    rintro seen b' ρ - ⟨added, hadded⟩ hb'
    have hstep : (s.action.shift offset).step? b'.arena =
        s.action.step? (s.arena.withValues ρ) := by rw [hb', hs.step?_graft hosts]
    obtain ⟨added', b₂, hgives, harena, hcollects⟩ := hadded.addInstance fun t ht => by
      rw [hstep] at ht
      rw [hb', hs.arguments_graft hosts]
      exact hs.arguments_eq ht
    refine ⟨b₂, hgives, harena, added', ?_⟩
    rw [hstep] at hcollects
    rw [List.filterMap_append, List.filterMap_cons, List.filterMap_nil]
    cases ht : s.action.step? (s.arena.withValues ρ) <;> simpa [ht] using hcollects
  arena := by
    rintro seen b' c ⟨added, hadded⟩
    exact ⟨added, hadded.withArena c⟩

/-- The entries that a search collects are the instances under strings that fit. -/
theorem Collects.adds {a : Action} {old added : List (ActionKey × Handle)} {facts : FactLayer}
    {strict : Bool} (hs : s.Built) (hfacts : facts.mutexes.IsSymm)
    (h : Collects schema into dependencies a old (s.instances facts strict) added b) :
    Adds s facts strict b old added where
  sound e he := by
    obtain ⟨t, ht, hkey, haction⟩ := h.sound e he
    obtain ⟨σ, hσ, rfl⟩ := (hs.mem_instances_iff hfacts).1 ht
    exact ⟨σ, hσ, hkey, haction⟩
  complete σ hσ := h.complete _ ((hs.mem_instances_iff hfacts).2 ⟨σ, hσ, rfl⟩)
  new := h.new
  once := h.once

/-- **Grounding is exact.** Whatever was bound before, and whatever the file holds, the search adds
the instances of the schema under the strings that fit and that the file has not, each once, tells
how many they are, and leaves all parameters unbound. -/
theorem find_exact (hp : Problem.parse text = .ok p) (hs : s ∈ p.schemas)
    (hplaced : s.Placed b.arena offset)
    (hschema : b.items[schema]? = some (.action (s.action.shift offset))) {facts : FactLayer}
    (hlayer : b.Presents layer facts) {f : FileItem} (hinto : b.items[into]? = some (.file f))
    (hdependencies : ∀ d ∈ dependencies, ∃ g, b.items[d]? = some (.file g)) (strict : Bool) :
    ∃ added b', (find schema layer into dependencies strict).run.run b =
        (.ok added.length, b') ∧
      (∃ g, b'.items[into]? = some (.file g) ∧ g.instances = f.instances ++ added) ∧
      Adds s facts strict b' f.instances added ∧
      ∀ i ∈ (s.action.shift offset).parameters, b'.arena.value? i = none := by
  have hbuilt := Problem.built_of_parse hp s hs
  have hreg := hbuilt.regular
  have hosts := hplaced.hosts
  obtain ⟨literals, x, hitem, hconstant, hx, hfacts⟩ := hlayer
  have hlayer : literals.layer b.arena facts.mutexes = facts := by rw [LiteralSet.layer, hfacts]
  -- at the start the cells have whatever values they have
  have hstart := gives_clearAction_placed hbuilt hplaced hschema hosts.graft_self.symm
    hosts.value? hplaced.unbound
  -- the search, from the cleared arena
  have hvisits : Visits b.arena s.arena offset (addInstance schema into dependencies)
      (Collected s schema into dependencies offset f.instances) :=
    visits_addInstance hreg hosts f.instances
  have hnone : Collected s schema into dependencies offset f.instances []
      { b with arena := b.arena.graft s.arena offset s.arena.value? } :=
    ⟨[], (collects_nil hschema hinto hdependencies).withArena _⟩
  have hretains : s.arena.Retains s.arena.value? := fun _ _ => rfl
  have hreaches : Reaches (Collected s schema into dependencies offset f.instances)
      (underAssignments (literals, x) strict (addInstance schema into dependencies)
        (s.action.preconditions.members.map (Literal.shift offset)) [])
      { b with arena := b.arena.graft s.arena offset s.arena.value? } _ :=
    reaches_underAssignments hosts hx hconstant hvisits
      (fun l hl => hreg.holds_precondition hl) (fun m hm => absurd hm List.not_mem_nil)
      hretains hnone rfl
  rw [hlayer, List.nil_append] at hreaches
  obtain ⟨b₂, hsearch, harena, added, hcollects⟩ := hreaches
  rw [List.map_nil, ← hreg.instances_eq] at hcollects
  -- and the same again at the end
  have hend := gives_clearAction_placed hbuilt hplaced hcollects.schema harena hretains
    fun i _ hc _ => hreg.value?_eq_none hc
  obtain ⟨g, hg, hinstances⟩ := hcollects.file
  have hcount : g.instances.length - f.instances.length = added.length := by
    rw [hinstances, List.length_append, Nat.add_sub_cancel_left]
  have hinstance : (s.action.shift offset).isInstance = false := by
    rw [Action.isInstance]
    exact congrArg Option.isSome hreg.key
  refine ⟨added, { b₂ with arena := b.arena.graft s.arena offset s.arena.value? }, ?_,
    ⟨g, hg, hinstances⟩, (hcollects.withArena _).adds hbuilt hx.tidy.isSymm, fun i hi => ?_⟩
  · rw [← hcount]
    refine (gives_action hschema).bind ?_
    rw [hinstance]
    refine (gives_factLayer hitem).bind ((gives_file hinto).bind (hstart.bind
      ((hsearch.tryCatch _).bind (hend.bind ?_))))
    exact Gives.bind (gives_file hg) (gives_pure _)
  · obtain ⟨j, hj, rfl⟩ := List.mem_map.1 hi
    obtain ⟨l, hl, hjl, hc⟩ := hbuilt.mem_parameters.1 hj
    rw [hosts.value?_graft (hreg.holds l hl j hjl), hreg.value?_eq_none hc]

end Find

/-- Driving to another place. -/
def driveText : String := "drive :: at(X), road(X, Y), distinct(X, Y) => not at(X), at(Y).
  at(a). road(a, a). road(a, b). goal at(b)."

/-- A schema, a layer and a file on a workbench, with the first variable of the schema bound. -/
def driveBench (p : Problem) (s : Schema) : Workbench where
  arena := ((s.moveInto .empty 0).2.bind 0 "z").2
  scopes := 1
  items := #[.action (s.moveInto .empty 0).1, .factLayer ⟨p.initial.map Fact.literal⟩ {}, .file {}]

/-- One of the two roads leads to another place, whatever was bound before. -/
theorem find_exact_drive : ∃ p s added b', Problem.parse driveText = .ok p ∧ s ∈ p.schemas ∧
    (driveBench p s).arena.value? 0 = some "z" ∧ added.length = 1 ∧
    (find 0 1 2 none true).run.run (driveBench p s) = (.ok 1, b') ∧
    Adds s ⟨p.initial, {}⟩ true b' [] added := by
  have hread : (Problem.parse driveText).toOption.any (fun p => p.schemas.any fun s =>
      decide (0 ∈ s.action.parameters ∧ (driveBench p s).arena.value? 0 = some "z") &&
        ((find 0 1 2 none true).run.run (driveBench p s)).1.toOption == some 1) = true := by
    decide +kernel
  cases hp : Problem.parse driveText with
  | error e =>
    rw [hp] at hread
    cases hread
  | ok p =>
    rw [hp] at hread
    obtain ⟨s, hs, hread⟩ := List.any_eq_true.1 hread
    obtain ⟨hbound, hcount⟩ := (Bool.and_eq_true _ _).mp hread
    obtain ⟨hparameter, hz⟩ := of_decide_eq_true hbound
    have hbuilt := Problem.built_of_parse hp s hs
    have hplaced : s.Placed (driveBench p s).arena 0 :=
      hbuilt.placed_bind (hbuilt.placed_moveInto Arena.sound_empty 0) hparameter "z"
    have hschema : (driveBench p s).items[0]? = some (.action (s.action.shift 0)) := rfl
    have hlayer : (driveBench p s).Presents 1 ⟨p.initial, {}⟩ := Workbench.presents_of_facts rfl
    have hfile : (driveBench p s).items[2]? = some (.file {}) := rfl
    have hnone : ∀ d ∈ (none : Option Handle), ∃ g, (driveBench p s).items[d]? = some (.file g) :=
      fun d hd => absurd hd (Option.not_mem_none d)
    obtain ⟨added, b', hrun, -, hadds, -⟩ :=
      find_exact hp hs hplaced hschema hlayer hfile hnone true
    rw [hrun] at hcount
    have hlength : added.length = 1 := Option.some.inj (beq_iff_eq.1 hcount)
    exact ⟨p, s, added, b', rfl, hs, hz, hlength, hlength ▸ hrun, hadds⟩

end Bench

end Strips
